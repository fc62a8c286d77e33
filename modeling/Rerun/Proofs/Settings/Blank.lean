import Mathlib.Logic.Function.Basic
import Rerun.Proofs.Session.Routes
import Rerun.Proofs.Text.Lines
import Rerun.Settings

/-!
Settings that are given by a blank text. Each setting is read from what its own name is bound to
(`Settings.read_update_iff`), so that a blank one can be compared with one that is not set: they
come to the same unless the setting heeds blanks (`Key.HeedsBlank`), and then only when the settings
are refused in any case (`Settings.blank_alike_iff`).
-/

namespace Rerun

/-! ### Blank texts -/

namespace Text

variable {s : String} {c : Char}

theorem isBlank_of_strip_eq_empty (h : strip s = "") : ∀ c ∈ s.toList, isBlank c = true := by
  intro c hc
  by_contra hsolid
  rw [Bool.not_eq_true] at hsolid
  have hempty := congrArg String.toList h
  rw [strip, String.toList_ofList] at hempty
  exact stripChars_ne_nil hc hsolid hempty

theorem digitValue?_of_isBlank (h : isBlank c = true) : digitValue? c = none := by
  have hzeros : ∀ z ∈ Tables.decimalZeros.toList,
      (0xa0 < z ∧ z + 9 < 0x1680) ∨ (0x1680 < z ∧ z + 9 < 0x2000) ∨ 0x3000 < z := by decide
  simp only [isBlank, Bool.or_eq_true, Bool.and_eq_true, decide_eq_true_eq, beq_iff_eq] at h
  rw [digitValue?]
  split
  · rename_i hascii
    rw [if_neg]
    simp only [Bool.and_eq_true, decide_eq_true_eq, not_and, not_le]
    omega
  · rw [Option.map_eq_none_iff, Array.find?_eq_none]
    intro z hz
    have hrange := hzeros z (Array.mem_toList_iff.mpr hz)
    simp only [Bool.and_eq_true, decide_eq_true_eq, not_and, not_le]
    omega

end Text

theorem Binary64.readChars?_of_blank {cs : List Char} (h : ∀ c ∈ cs, Text.isBlank c = true) :
    readChars? cs = none := by
  cases cs with
  | nil => rfl
  | cons c cs =>
      have hc : Text.isBlank c = true := h c List.mem_cons_self
      have hsolid {d : Char} (hd : Text.isBlank d = false) : c ≠ d := by
        rintro rfl
        exact Bool.false_ne_true (hd.symm.trans hc)
      have hsign : Text.signOf (c :: cs) = (false, c :: cs) := by
        rw [Text.signOf.eq_3]
        · exact fun _ hcs => hsolid (by decide) (List.cons.inj hcs).1
        · exact fun _ hcs => hsolid (by decide) (List.cons.inj hcs).1
      have hlower : lowerChar c = c := by
        refine if_neg fun hupper => ?_
        simp only [Text.isBlank, Bool.or_eq_true, Bool.and_eq_true, decide_eq_true_eq,
          beq_iff_eq] at hc
        have hlow : 65 ≤ c.toNat := hupper.1
        have hhigh : c.toNat ≤ 90 := hupper.2
        omega
      have hname {d : Char} (ds : List Char) (hd : Text.isBlank d = false) :
          String.ofList ((c :: cs).map lowerChar) ≠ String.ofList (d :: ds) := by
        rw [List.map_cons, hlower]
        exact fun heq => hsolid hd (List.cons.inj (String.ofList_injective heq)).1
      have hdigits : Text.digitRun (c :: cs) = ([], c :: cs) := by
        have hunder : c ≠ '_' := hsolid (by decide)
        have hhead : (c :: cs).head? ≠ some '_' := fun h => hunder (Option.some.inj h)
        rw [Text.digitRun, if_neg hhead, Text.moreDigits.eq_3, Text.digitValue?_of_isBlank hc]
        exact fun _ _ h _ => hunder h
      rw [readChars?, hsign]
      dsimp only
      rw [hdigits, if_neg, if_neg (hname ['a', 'n'] (by decide)), if_pos]
      · dsimp only
        split
        · rename_i hcs
          exact absurd (List.cons.inj hcs).1 (hsolid (by decide))
        · rfl
      · rw [Bool.or_eq_true, decide_eq_true_eq, decide_eq_true_eq, not_or]
        exact ⟨hname ['n', 'f'] (by decide), hname ['n', 'f', 'i', 'n', 'i', 't', 'y'] (by decide)⟩

theorem Binary64.read?_of_blank {s : String} (h : ∀ c ∈ s.toList, Text.isBlank c = true) :
    read? s = none := by
  refine readChars?_of_blank fun c hc => h c ?_
  rw [Text.stripNumeral, Text.dropEndWhile, List.mem_reverse] at hc
  have hrest := (List.dropWhile_sublist _).mem hc
  exact (List.dropWhile_sublist _).mem (List.mem_reverse.mp hrest)

/-- A blank text names no folder that stands in for one that is not named. -/
theorem Path.resolve_blank_ne {s : String} (h : ∀ c ∈ s.toList, Text.isBlank c = true) :
    work.resolve s ≠ work.resolve "./sessions" := by
  have hsolid {d : Char} (ds : List Char) (hd : Text.isBlank d = false) :
      s ≠ String.ofList (d :: ds) := by
    rintro rfl
    rw [String.toList_ofList] at h
    exact Bool.false_ne_true (hd.symm.trans (h d List.mem_cons_self))
  have hsessions : work.resolve "./sessions" = ⟨true, ["sessions"]⟩ := by decide
  rw [hsessions]
  by_cases hempty : s = ""
  · subst hempty
    decide
  · have hname : IsName s := by
      refine ⟨fun hslash => ?_, hempty, hsolid [] (by decide), hsolid ['.'] (by decide)⟩
      exact absurd (h _ hslash) (by decide)
    rw [resolve_name work hname]
    intro heq
    have hparts : [s] = ["sessions"] := (Path.mk.injEq .. ▸ heq).2
    exact hsolid (d := 's') "essions".toList (by decide) (List.cons.inj hparts).1

namespace Settings

/-! ### One setting at a time -/

/-- The settings that are read. -/
inductive Key where
  | sessionsRoot
  | runTimeout
  | batchTimeout
  | challengeTimeout
  | startupTimeout
  | idleTimeout
  | sessionLogs
  | batchWorkers
  | fallback
  | judgeUrl
  | judgeKey
  | remoteMaxWait
  | pollInterval
  deriving DecidableEq

namespace Key

/-- The name under which a setting is given. -/
def name : Key → String
  | sessionsRoot => "SESSIONS_ROOT"
  | runTimeout => "RUN_TIMEOUT_MS"
  | batchTimeout => "BATCH_TIMEOUT_MS"
  | challengeTimeout => "CHALLENGE_TIMEOUT_MS"
  | startupTimeout => "STARTUP_TIMEOUT_S"
  | idleTimeout => "IDLE_TIMEOUT_S"
  | sessionLogs => "SESSION_LOGS"
  | batchWorkers => "BATCH_WORKERS"
  | fallback => "FALLBACK"
  | judgeUrl => "JUDGE0_API_URL"
  | judgeKey => "JUDGE0_RAPIDAPI_KEY"
  | remoteMaxWait => "REMOTE_MAX_WAIT_MS"
  | pollInterval => "REMOTE_POLL_INTERVAL_MS"

theorem name_inj {k k' : Key} (h : k.name = k'.name) : k = k' := by
  cases k <;> cases k' <;> first | rfl | exact absurd h (by decide)

/-- A setting is as it is read from a source. -/
def Holds (s : Source) (t : Settings) : Key → Prop
  | sessionsRoot => rootOf s = .ok t.sessionRoot
  | runTimeout => whole s runTimeout.name 10000 = .ok t.runTimeoutMs
  | batchTimeout => whole s batchTimeout.name 15000 = .ok t.batchTimeoutMs
  | challengeTimeout => whole s challengeTimeout.name 5000 = .ok t.challengeTimeoutMs
  | startupTimeout => number s startupTimeout.name "10" = .ok t.startupTimeout
  | idleTimeout => whole s idleTimeout.name 2700 = .ok t.idleTimeout
  | sessionLogs => t.keepLogs = isOn ((s sessionLogs.name).getD "false")
  | batchWorkers => workersOf s = .ok t.workers
  | fallback => fallbackOf s = .ok t.fallback
  | judgeUrl => judgeUrlOf s t.fallback = .ok t.judgeUrl
  | judgeKey => t.judgeKey = nonempty s judgeKey.name
  | remoteMaxWait => whole s remoteMaxWait.name 10000 = .ok t.remoteMaxWaitMs
  | pollInterval => whole s pollInterval.name 1000 = .ok t.pollIntervalMs

end Key

variable {s s' : Source} {t : Settings} {k : Key} {v : Option String} {raw : String}

theorem given_congr {name : String} (h : s name = s' name) : given s name = given s' name := by
  rw [given, given, h]

theorem whole_congr {name : String} (h : s name = s' name) (usual : Int) :
    whole s name usual = whole s' name usual := by
  rw [whole, whole, given_congr h]

theorem Key.holds_congr (h : s k.name = s' k.name) : k.Holds s t ↔ k.Holds s' t := by
  cases k with
  | sessionsRoot =>
      rw [name] at h
      rw [Holds, Holds, rootOf, rootOf, h]
  | startupTimeout => rw [Holds, Holds, number, number, h]
  | sessionLogs => rw [Holds, Holds, h]
  | batchWorkers =>
      rw [name] at h
      rw [Holds, Holds, workersOf, workersOf, whole_congr h]
  | fallback =>
      rw [name] at h
      rw [Holds, Holds, fallbackOf, fallbackOf, given_congr h]
  | judgeUrl =>
      rw [name] at h
      rw [Holds, Holds, judgeUrlOf, judgeUrlOf, nonempty, nonempty, h]
  | judgeKey => rw [Holds, Holds, nonempty, nonempty, h]
  | runTimeout | batchTimeout | challengeTimeout | idleTimeout | remoteMaxWait | pollInterval =>
      rw [Holds, Holds, whole_congr h]

theorem bind_eq_ok_iff {α β : Type} {x : Except Failure α} {f : α → Except Failure β} {b : β} :
    (x >>= f) = .ok b ↔ ∃ a, x = .ok a ∧ f a = .ok b := by
  cases x with
  | error e => exact ⟨nofun, fun ⟨_, h, _⟩ => absurd h nofun⟩
  | ok a => exact ⟨fun h => ⟨a, rfl, h⟩, fun ⟨_, h, hf⟩ => Except.ok.inj h ▸ hf⟩

theorem read_eq_ok_iff : read s = .ok t ↔ ∀ k : Key, k.Holds s t := by
  rw [read]
  simp only [bind_eq_ok_iff]
  constructor
  · rintro ⟨root, hroot, fallback, hfallback, url, hurl, workers, hworkers, run, hrun, batch,
      hbatch, challenge, hchallenge, startup, hstartup, idle, hidle, wait, hwait, poll, hpoll, ht⟩
    obtain rfl := Except.ok.inj ht
    intro k
    cases k with
    | sessionsRoot => exact hroot
    | runTimeout => exact hrun
    | batchTimeout => exact hbatch
    | challengeTimeout => exact hchallenge
    | startupTimeout => exact hstartup
    | idleTimeout => exact hidle
    | sessionLogs => exact rfl
    | batchWorkers => exact hworkers
    | fallback => exact hfallback
    | judgeUrl => exact hurl
    | judgeKey => exact rfl
    | remoteMaxWait => exact hwait
    | pollInterval => exact hpoll
  · intro h
    refine ⟨_, h .sessionsRoot, _, h .fallback, _, h .judgeUrl, _, h .batchWorkers, _,
      h .runTimeout,
      _, h .batchTimeout, _, h .challengeTimeout, _, h .startupTimeout, _, h .idleTimeout, _,
      h .remoteMaxWait, _, h .pollInterval, ?_⟩
    have hlogs : t.keepLogs = isOn ((s "SESSION_LOGS").getD "false") := h .sessionLogs
    have hkey : t.judgeKey = nonempty s "JUDGE0_RAPIDAPI_KEY" := h .judgeKey
    rw [← hlogs, ← hkey]

/-- All settings but one are as they are read. -/
def Key.Beside (k : Key) (s : Source) (t : Settings) : Prop := ∀ k' ≠ k, k'.Holds s t

theorem read_update_iff : read (Function.update s k.name v) = .ok t ↔
    k.Holds (fun _ => v) t ∧ k.Beside s t := by
  have hself : k.Holds (Function.update s k.name v) t ↔ k.Holds (fun _ => v) t :=
    Key.holds_congr (Function.update_self k.name v s)
  have hother {k' : Key} (hk : k' ≠ k) : k'.Holds (Function.update s k.name v) t ↔ k'.Holds s t :=
    Key.holds_congr (Function.update_of_ne (mt Key.name_inj hk) v s)
  rw [read_eq_ok_iff]
  constructor
  · exact fun h => ⟨hself.mp (h k), fun k' hk => (hother hk).mp (h k')⟩
  · rintro ⟨hk, hbeside⟩ k'
    by_cases heq : k' = k
    · exact heq ▸ hself.mpr hk
    · exact (hother heq).mpr (hbeside k' heq)

/-! ### Blank settings -/

/-- A blank text counts as a setting: always where any text is taken as it is, and where only empty
ones are passed over, unless it is empty. -/
def Key.HeedsBlank (raw : String) : Key → Prop
  | sessionsRoot | startupTimeout => True
  | judgeUrl | judgeKey => raw ≠ ""
  | _ => False

theorem given_blank (hblank : Text.strip raw = "") (name : String) :
    given (fun _ => some raw) name = given (fun _ => none) name := by
  simp [given, hblank]

theorem whole_blank (hblank : Text.strip raw = "") (name : String) (usual : Int) :
    whole (fun _ => some raw) name usual = whole (fun _ => none) name usual := by
  rw [whole, whole, given_blank hblank]

theorem Key.holds_blank (hblank : Text.strip raw = "") (hheeds : ¬ k.HeedsBlank raw) :
    k.Holds (fun _ => some raw) t ↔ k.Holds (fun _ => none) t := by
  cases k with
  | sessionsRoot | startupTimeout => exact absurd trivial hheeds
  | sessionLogs =>
      have hoff : isOn raw = isOn "false" := by
        rw [isOn, hblank]
        decide +kernel
      rw [Holds, Holds, Option.getD_some, Option.getD_none, hoff]
  | batchWorkers => rw [Holds, Holds, workersOf, workersOf, whole_blank hblank]
  | fallback => rw [Holds, Holds, fallbackOf, fallbackOf, given_blank hblank]
  | judgeUrl =>
      obtain rfl := not_not.mp hheeds
      rfl
  | judgeKey =>
      obtain rfl := not_not.mp hheeds
      rfl
  | runTimeout | batchTimeout | challengeTimeout | idleTimeout | remoteMaxWait | pollInterval =>
      rw [Holds, Holds, whole_blank hblank]

theorem usualStartup_isSome : (Binary64.read? "10").isSome = true := by decide +kernel

/-- An address that is not empty is taken as it is, whether or not it is needed. -/
theorem judgeUrlOf_of_ne (hraw : raw ≠ "") (fallback : Fallback) :
    judgeUrlOf (fun _ => some raw) fallback = .ok (some raw) := by
  simp [judgeUrlOf, nonempty, hraw]

theorem Key.Beside.withUrl (h : judgeUrl.Beside s t) (url : Option String) :
    judgeUrl.Beside s { t with judgeUrl := url } := by
  intro k' hk
  cases k' <;> first | exact absurd rfl hk | exact h _ hk

theorem judgeUrlOf_unset_ne (fallback : Fallback) :
    judgeUrlOf (fun _ => none) fallback ≠ .ok (some raw) := by
  cases fallback <;> simp [judgeUrlOf, nonempty]

theorem rootOf_blank (hblank : Text.strip raw = "") :
    rootOf (fun _ => some raw) = .ok (Path.work.resolve raw) := by
  have hnull : raw.toList.contains '\x00' = false := by
    rw [List.contains_eq_mem, decide_eq_false_iff_not]
    exact fun hmem => absurd (Text.isBlank_of_strip_eq_empty hblank _ hmem) (by decide)
  rw [rootOf, Option.getD_some, hnull]
  rfl

theorem number_blank_ne (hblank : Text.strip raw = "") (name usual : String) (x : Binary64) :
    number (fun _ => some raw) name usual ≠ .ok x := by
  rw [number, Option.getD_some, Binary64.read?_of_blank (Text.isBlank_of_strip_eq_empty hblank)]
  exact nofun

theorem Key.exists_holds_not (hblank : Text.strip raw = "") (hheeds : k.HeedsBlank raw)
    (h : k.Beside s t) : ∃ t', k.Beside s t' ∧
      (k.Holds (fun _ => some raw) t' ↔ ¬ k.Holds (fun _ => none) t') := by
  cases k with
  | sessionsRoot =>
      refine ⟨{ t with sessionRoot := Path.work.resolve raw }, fun k' hk => ?_, ?_⟩
      · cases k' <;> first | exact absurd rfl hk | exact h _ hk
      · have hunset : rootOf (fun _ => none) = .ok (Path.work.resolve "./sessions") := rfl
        have hother := Path.resolve_blank_ne (Text.isBlank_of_strip_eq_empty hblank)
        rw [Holds, Holds, rootOf_blank hblank, hunset, Except.ok.injEq, Except.ok.injEq]
        exact ⟨fun _ heq => hother heq.symm, fun _ => rfl⟩
  | startupTimeout =>
      obtain ⟨ten, hten⟩ := Option.isSome_iff_exists.mp usualStartup_isSome
      refine ⟨{ t with startupTimeout := ten }, fun k' hk => ?_, ?_⟩
      · cases k' <;> first | exact absurd rfl hk | exact h _ hk
      · have hunset : Holds (fun _ => none) { t with startupTimeout := ten } startupTimeout := by
          rw [Holds, number, Option.getD_none, hten]
        exact iff_of_false (number_blank_ne hblank _ _ _) (not_not.mpr hunset)
  | judgeUrl =>
      have hraw : raw ≠ "" := hheeds
      refine ⟨{ t with judgeUrl := some raw }, h.withUrl (some raw), ?_⟩
      exact iff_of_true (judgeUrlOf_of_ne hraw t.fallback) (judgeUrlOf_unset_ne t.fallback)
  | judgeKey =>
      have hraw : raw ≠ "" := hheeds
      refine ⟨{ t with judgeKey := some raw }, fun k' hk => ?_, ?_⟩
      · cases k' <;> first | exact absurd rfl hk | exact h _ hk
      · have hset : some raw = nonempty (fun _ => some raw) judgeKey.name :=
          (Option.filter_some_pos (by simpa using hraw)).symm
        have hunset : some raw ≠ nonempty (fun _ => none) judgeKey.name := nofun
        exact iff_of_true hset hunset
  | _ => exact absurd hheeds id

/-! ### Refusals -/

/-- Whatever fails is a value that is refused. -/
def Refusing {α : Type} (x : Except Failure α) : Prop := ∀ e, x = .error e → e.kind = .badValue

theorem Refusing.ok {α : Type} (a : α) : Refusing (.ok a) := nofun

theorem Refusing.badValue {α : Type} (text : String) :
    Refusing (.error (.badValue text) : Except Failure α) := by
  rintro _ ⟨⟩
  rfl

theorem Refusing.bind {α β : Type} {x : Except Failure α} {f : α → Except Failure β}
    (hx : Refusing x) (hf : ∀ a, Refusing (f a)) : Refusing (x >>= f) := by
  cases x with
  | error e =>
      rintro _ ⟨⟩
      exact hx e rfl
  | ok a => exact hf a

theorem refusing_rootOf (s : Source) : Refusing (rootOf s) := by
  rw [rootOf]
  split
  · exact .badValue _
  · exact .ok _

theorem refusing_whole (s : Source) (name : String) (usual : Int) :
    Refusing (whole s name usual) := by
  rw [whole]
  split
  · exact .ok _
  · split
    · exact .ok _
    · exact .badValue _

theorem refusing_number (s : Source) (name usual : String) : Refusing (number s name usual) := by
  rw [number]
  split
  · exact .ok _
  · exact .badValue _

theorem refusing_fallbackOf (s : Source) : Refusing (fallbackOf s) := by
  rw [fallbackOf]
  split
  · exact .ok _
  · split
    · exact .ok _
    · exact .badValue _

theorem refusing_workersOf (s : Source) : Refusing (workersOf s) := by
  refine .bind (refusing_whole s _ _) fun n => ?_
  split
  · exact .badValue _
  · exact .ok _

theorem refusing_judgeUrlOf (s : Source) (fallback : Fallback) :
    Refusing (judgeUrlOf s fallback) := by
  rw [judgeUrlOf]
  split
  · exact .badValue _
  · exact .ok _

theorem refusing_read (s : Source) : Refusing (read s) :=
  .bind (refusing_rootOf s) fun _ => .bind (refusing_fallbackOf s) fun fallback =>
    .bind (refusing_judgeUrlOf s fallback) fun _ => .bind (refusing_workersOf s) fun _ =>
    .bind (refusing_whole s _ _) fun _ => .bind (refusing_whole s _ _) fun _ =>
    .bind (refusing_whole s _ _) fun _ => .bind (refusing_number s _ _) fun _ =>
    .bind (refusing_whole s _ _) fun _ => .bind (refusing_whole s _ _) fun _ =>
    .bind (refusing_whole s _ _) fun _ => .ok _

/-! ### The whole -/

def IsRefused (x : Except Failure Settings) : Prop := ∃ e, x = .error e ∧ e.kind = .badValue

theorem isRefused_read_iff : IsRefused (read s) ↔ ∀ t, read s ≠ .ok t := by
  constructor
  · rintro ⟨e, he, -⟩ t
    rw [he]
    exact nofun
  · intro h
    cases hread : read s with
    | error e => exact ⟨e, rfl, refusing_read s e hread⟩
    | ok t => exact absurd hread (h t)

def Alike (x y : Except Failure Settings) : Prop := x = y ∨ IsRefused x ∧ IsRefused y

theorem alike_read_iff : Alike (read s) (read s') ↔ ∀ t, read s = .ok t ↔ read s' = .ok t := by
  constructor
  · rintro (h | ⟨h, h'⟩) t
    · rw [h]
    · exact iff_of_false (isRefused_read_iff.mp h t) (isRefused_read_iff.mp h' t)
  · intro h
    cases hread : read s with
    | ok t => exact .inl ((h t).mp hread).symm
    | error e =>
        have hnot (t : Settings) : read s ≠ .ok t := by
          rw [hread]
          exact nofun
        rw [← hread]
        exact .inr ⟨isRefused_read_iff.mpr hnot,
          isRefused_read_iff.mpr fun t => mt (h t).mpr (hnot t)⟩

/-- The settings are refused, whatever one of them is. -/
def Key.RefusedAnyway (k : Key) (s : Source) : Prop :=
  ∀ v, IsRefused (read (Function.update s k.name v))

theorem Key.RefusedAnyway.read (h : k.RefusedAnyway s) : IsRefused (read s) := by
  have hself := h (s k.name)
  rwa [Function.update_eq_self] at hself

theorem Key.exists_beside (h : ¬ k.RefusedAnyway s) : ∃ t, k.Beside s t := by
  obtain ⟨v, hv⟩ := not_forall.mp h
  obtain ⟨t, ht⟩ := not_forall_not.mp (mt isRefused_read_iff.mpr hv)
  exact ⟨t, (read_update_iff.mp ht).2⟩

theorem read_bound_iff (hbound : s k.name = v) : read s = .ok t ↔
    k.Holds (fun _ => v) t ∧ k.Beside s t := by
  have hsame : Function.update s k.name v = s := hbound ▸ Function.update_eq_self k.name s
  rw [← read_update_iff, hsame]

/-- A blank setting comes to the same as one that is not set, unless blanks are heeded. Then it does
so only when the settings are refused anyway. -/
theorem alike_unset_iff (hbound : s k.name = some raw) (hblank : Text.strip raw = "") :
    Alike (read s) (read (Function.update s k.name none)) ↔
      (k.HeedsBlank raw → k.RefusedAnyway s) := by
  rw [alike_read_iff]
  constructor
  · intro halike hheeds
    by_contra hnot
    obtain ⟨t, ht⟩ := Key.exists_beside hnot
    obtain ⟨t', ht', hone⟩ := Key.exists_holds_not hblank hheeds ht
    have hboth := halike t'
    rw [read_bound_iff hbound, read_update_iff, and_iff_left ht', and_iff_left ht'] at hboth
    exact iff_not_self (hboth.symm.trans hone)
  · intro hrefused t
    by_cases hheeds : k.HeedsBlank raw
    · have hanyway := hrefused hheeds
      exact iff_of_false (isRefused_read_iff.mp hanyway.read t)
        (isRefused_read_iff.mp (hanyway none) t)
    · rw [read_bound_iff hbound, read_update_iff, Key.holds_blank hblank hheeds]

/-- When the judge is to be used, a missing address is refused, and so is an empty one. Any other
one is not refused for itself. -/
theorem isRefused_url_iff (hjudge : fallbackOf s = .ok .judge)
    (hbound : (s Key.judgeUrl.name).getD "" = raw) :
    IsRefused (read s) ↔ raw = "" ∨ Key.judgeUrl.RefusedAnyway s := by
  constructor
  · intro hrefused
    refine or_iff_not_imp_left.mpr fun hraw => ?_
    by_contra hnot
    obtain ⟨t, ht⟩ := Key.exists_beside hnot
    have hsome : s Key.judgeUrl.name = some raw := by
      cases hurl : s Key.judgeUrl.name with
      | none =>
          rw [hurl, Option.getD_none] at hbound
          exact absurd hbound.symm hraw
      | some url =>
          rw [hurl, Option.getD_some] at hbound
          rw [hbound]
    have hread : read s = .ok { t with judgeUrl := some raw } :=
      (read_bound_iff hsome).mpr ⟨judgeUrlOf_of_ne hraw t.fallback, ht.withUrl (some raw)⟩
    exact isRefused_read_iff.mp hrefused _ hread
  · rintro (rfl | hanyway)
    · refine isRefused_read_iff.mpr fun t ht => ?_
      have hholds := read_eq_ok_iff.mp ht
      have hfallback : Fallback.judge = t.fallback :=
        Except.ok.inj (hjudge.symm.trans (hholds .fallback))
      have hnone : nonempty s "JUDGE0_API_URL" = none := by
        rw [Key.name] at hbound
        cases hurl : s "JUDGE0_API_URL" with
        | none => simp [nonempty, hurl]
        | some url =>
            rw [hurl, Option.getD_some] at hbound
            simp [nonempty, hurl, hbound]
      have hurl : judgeUrlOf s t.fallback = .ok t.judgeUrl := hholds .judgeUrl
      rw [judgeUrlOf, hnone, ← hfallback] at hurl
      exact absurd hurl nofun
    · exact hanyway.read

theorem source_drop (file env : List (String × String)) (name : String) :
    source (Assoc.drop file name) (Assoc.drop env name) =
      Function.update (source file env) name none := by
  funext other
  by_cases h : other = name
  · subst h
    rw [Function.update_self, source, Assoc.lookup_drop_self, Assoc.lookup_drop_self]
    rfl
  · rw [Function.update_of_ne h, source, Assoc.lookup_drop_of_ne _ h, Assoc.lookup_drop_of_ne _ h]
    rfl

theorem source_of_file {file : List (String × String)} {name : String}
    (h : file.lookup name = some raw) (env : List (String × String)) :
    source file env name = some raw := by
  rw [source, h]
  rfl

/-- A blank setting comes to the same as one that neither the file nor the environment gives, unless
blanks are heeded: then it does so only when the settings are refused anyway. When the judge is to
be used, no address but a missing or an empty one is refused for itself. What the file binds is what
counts, whatever the environment binds. -/
theorem blank_alike_iff (file env : List (String × String)) :
    (∀ {k : Key} {raw : String}, source file env k.name = some raw → Text.strip raw = "" →
      (Alike (read (source file env))
          (read (source (Assoc.drop file k.name) (Assoc.drop env k.name))) ↔
        (k.HeedsBlank raw → k.RefusedAnyway (source file env)))) ∧
    (fallbackOf (source file env) = .ok .judge → (IsRefused (read (source file env)) ↔
      (source file env Key.judgeUrl.name).getD "" = "" ∨
        Key.judgeUrl.RefusedAnyway (source file env))) ∧
    ∀ {k : Key} {raw : String}, file.lookup k.name = some raw →
      source file env k.name = some raw ∧
      ∀ env' : List (String × String), (∀ name ≠ k.name, env'.lookup name = env.lookup name) →
        read (source file env') = read (source file env) := by
  refine ⟨fun {k raw} hbound hblank => ?_, fun hjudge => isRefused_url_iff hjudge rfl,
    fun {k raw} hfile => ⟨source_of_file hfile env, fun env' hsame => ?_⟩⟩
  · rw [source_drop]
    exact alike_unset_iff hbound hblank
  · have hsource : source file env' = source file env := by
      funext name
      by_cases h : name = k.name
      · subst h
        rw [source_of_file hfile, source_of_file hfile]
      · rw [source, source, hsame name h]
    rw [hsource]

/-- An address of one blank is taken and one that a file leaves empty is refused; a time limit that
a file leaves empty is the usual one. -/
theorem blank_alike_iff_spaced :
    let env := [("FALLBACK", "JUDGE0"), ("JUDGE0_API_URL", " "), ("RUN_TIMEOUT_MS", "5")]
    let file := [("RUN_TIMEOUT_MS", "")]
    ¬ Alike (read (source file env)) (read (source (Assoc.drop file Key.judgeUrl.name)
      (Assoc.drop env Key.judgeUrl.name))) ∧
    Alike (read (source file env)) (read (source (Assoc.drop file Key.runTimeout.name)
      (Assoc.drop env Key.runTimeout.name))) ∧
    IsRefused (read (source [("JUDGE0_API_URL", "")] env)) ∧
    read (source file (("RUN_TIMEOUT_MS", "five") :: env)) = read (source file env) := by
  intro env file
  obtain ⟨halike, -, hfile⟩ := blank_alike_iff file env
  have hread : (read (source file env)).toOption.isSome = true := by decide +kernel
  have hurl : source file env Key.judgeUrl.name = some " " := by decide
  have hlimit : source file env Key.runTimeout.name = some "" := by decide
  refine ⟨fun h => ?_, (halike hlimit (by decide)).mpr fun h => absurd h id, ?_, ?_⟩
  · obtain ⟨e, he, -⟩ := ((halike hurl (by decide)).mp h (show " " ≠ "" by decide)).read
    rw [he] at hread
    exact absurd hread nofun
  · obtain ⟨-, hempty, -⟩ := blank_alike_iff [("JUDGE0_API_URL", "")] env
    have hfallback : (fallbackOf (source [("JUDGE0_API_URL", "")] env)).toOption = some .judge := by
      decide +kernel
    cases hof : fallbackOf (source [("JUDGE0_API_URL", "")] env) with
    | error e =>
        rw [hof] at hfallback
        exact absurd hfallback nofun
    | ok fallback =>
        rw [hof] at hfallback
        obtain rfl := Option.some.inj hfallback
        exact (hempty hof).mpr (.inl (by decide))
  · have hbound : file.lookup Key.runTimeout.name = some "" := by decide
    refine (hfile hbound).2 _ fun name hname => ?_
    have hother : (name == "RUN_TIMEOUT_MS") = false := beq_false_of_ne hname
    rw [List.lookup_cons, hother]

end Settings

end Rerun
