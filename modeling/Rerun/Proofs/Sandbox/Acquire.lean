import Rerun.Proofs.Sandbox.Startup
import Rerun.Proofs.Sandbox.Sweeps

/-!
Getting a session. The registered one is taken when nobody holds it and its interpreter answers;
otherwise one is started in its place. When an interpreter can be started this never fails, and the
session that comes of it has a live interpreter.
-/

namespace Rerun

open Sandbox Op

variable {s t : Sandbox}

namespace Interpreter

theorem does_probe (hs : s.Sane) {h : Nat} {x : Handle} (hx : s.handles[h]? = some x) :
    ∃ b cs, (probe h).Does s b { s with children := cs } ∧ Sane { s with children := cs } ∧
      replies { s with children := cs } = s.replies ∧
      (b = true → ∃ c y, x.child = some c ∧ cs[c]? = some y ∧ y.alive = true) := by
  cases hc : x.child with
  | none =>
      refine ⟨false, s.children, .bind (does_need hx) ?_, { hs with }, rfl, nofun⟩
      rw [hc]
      exact does_pure _
  | some c =>
      obtain ⟨y, hy, -⟩ := hs.handle hx hc
      have hpoll := Process.does_poll hy
      have hs₁ := hs.modifyChild c (f := fun c =>
        { c with polls := c.polls + 1, alive := Process.aliveAt y }) fun _ => rfl
      have hreplies := replies_modify s c (f := fun c =>
        { c with polls := c.polls + 1, alive := Process.aliveAt y }) fun _ => rfl
      cases halive : Process.aliveAt y with
      | false =>
          rw [halive] at hpoll hs₁ hreplies
          refine ⟨false, _, .bind (does_need hx) ?_, hs₁, hreplies, nofun⟩
          rw [hc]
          exact .bind hpoll (does_pure _)
      | true =>
          rw [halive] at hpoll hs₁ hreplies
          have hy₁ : (s.children.modify c fun c =>
            { c with polls := c.polls + 1, alive := true })[c]? =
              some { y with polls := y.polls + 1, alive := true } :=
            Table.getElem?_modify_eq_some.mpr ⟨y, hy, by rw [if_pos rfl]⟩
          obtain ⟨cs, hhealth, hs₂, hreplies', hz⟩ := Process.does_health hs₁ hy₁
          have hlive : ∃ c' z, some c = some c' ∧ cs[c']? = some z ∧ z.alive = true :=
            ⟨c, _, rfl, hz, rfl⟩
          cases hnext : Process.nextHealth { y with polls := y.polls + 1, alive := true } with
          | status n =>
              rw [hnext] at hhealth
              refine ⟨n = 200, cs, .bind (does_need hx) ?_, hs₂, hreplies'.trans hreplies,
                fun _ => hlive⟩
              rw [hc]
              exact .bind hpoll (.bind hhealth (does_pure _))
          | fault f =>
              rw [hnext] at hhealth
              refine ⟨false, cs, .bind (does_need hx) ?_, hs₂, hreplies'.trans hreplies,
                fun _ => hlive⟩
              rw [hc]
              exact .bind hpoll (.bind hhealth (does_pure _))

end Interpreter

namespace Registry

variable {key : String} {r : Nat} {x : Record}

/-- A session that is usable and that nobody holds has a live interpreter. -/
theorem does_usable (hs : s.Sane) (hx : s.records[r]? = some x) (hfree : x.locked = false) :
    ∃ b t, (usable r).Does s b t ∧ t.Sane ∧ t.replies = s.replies ∧
      t = { s with records := t.records, children := t.children } ∧
      (b = true → ∃ y c z, Attached t r y c z ∧ y.folder = x.folder) := by
  have unusable (h : ∀ others, usable r others s = (.ok false, s)) : ∃ b t,
      (usable r).Does s b t ∧ t.Sane ∧ t.replies = s.replies ∧
      t = { s with records := t.records, children := t.children } ∧
      (b = true → ∃ y c z, Attached t r y c z ∧ y.folder = x.folder) :=
    ⟨false, s, h, hs, rfl, rfl, nofun⟩
  have hrecord : (record r).Does s x s := does_need hx
  cases hstate : x.state with
  | uninitialized =>
      exact unusable fun others => by simp [usable, bind_apply, hrecord others, hstate]
  | corrupted => exact unusable fun others => by simp [usable, bind_apply, hrecord others, hstate]
  | busy => exact absurd (hfree.symm.trans ((hs.record hx).1 hstate)) nofun
  | ready =>
      obtain ⟨-, h, hh, -⟩ := hs.record hx
      obtain ⟨b, cs, hprobe, hs₁, hreplies, hlive⟩ := Interpreter.does_probe hs hh
      cases b with
      | false =>
          refine ⟨false, _, .bind hrecord ?_, hs₁, hreplies, rfl, nofun⟩
          rw [hstate]
          exact .bind hprobe (does_pure _)
      | true =>
          obtain ⟨c, y, hc, hy, halive⟩ := hlive rfl
          refine ⟨true, _, .bind hrecord ?_, hs₁.modifyRecord r
            (f := fun x => { x with lastUsed := s.clock }) (fun _ => ⟨rfl, rfl⟩) fun _ h => h,
            hreplies, rfl, fun _ => ⟨{ x with lastUsed := s.clock }, c, y, ?_, rfl⟩⟩
          · rw [hstate]
            exact .bind hprobe (.bind (does_view _) (.bind (does_change _) (does_pure _)))
          · exact ⟨Table.getElem?_modify_eq_some.mpr ⟨x, hx, by rw [if_pos rfl]⟩, hstate, hfree,
              ⟨h, hh, hc⟩, hy, halive⟩

/-- A process that comes up is one of those that were to be started, or an ordinary one. -/
theorem comesUp_mem {timeout : Binary64} {attempts : Nat} {scripts : List ChildScript} {now : Int}
    {script : ChildScript} (h : comesUp timeout attempts scripts now = some script) :
    script ∈ scripts ∨ script = {} := by
  induction attempts generalizing scripts now with
  | zero => cases h
  | succ attempts ih =>
      rw [comesUp] at h
      split at h
      · obtain rfl := Option.some.inj h
        cases scripts with
        | nil => exact .inr rfl
        | cons x rest => exact .inl List.mem_cons_self
      · split at h
        · exact (ih h).imp_left List.mem_of_mem_tail
        · cases h

theorem enter_eq_ok (hs : s.Sane) {p : Path} {script : ChildScript} {others : Interrupts}
    (hfolder : folderOf s.setup key = .ok p) (hnew : NewSession script p (start key others s)) :
    ∃ t r x c y, enter key others s = (.ok (), t) ∧ t.Sane ∧ t.sessions.lookup key = some r ∧
      Attached t r x c y ∧ y.script.replies = script.replies ∧ t.folders.has x.folder = true ∧
      s.SameTables { t with records := s.records, sessions := s.sessions } := by
  obtain ⟨r, t, x, c, y, hstart, ht, hattached, hreplies, rfl, hhas⟩ := hnew
  obtain ⟨hr, -, -, -, -, -, hsame⟩ := start_eq_ok hstart
  -- The record is new, so that no key leads to it yet.
  have hone (k : String) : t.sessions.lookup k ≠ some r := by
    intro hk
    have hsessions : t.sessions = s.sessions := hsame.sessions
    rw [hsessions] at hk
    obtain ⟨z, hz, -⟩ := hs.session hk
    rw [hr, List.getElem?_eq_none (Nat.le_refl _)] at hz
    exact absurd hz nofun
  have hsetup : t.setup = s.setup := hsame.setup
  rw [← hsetup] at hfolder
  have hs₂ := ht.putSession hattached.record hfolder hone
  have hregister : register key others s =
      (.ok r, { t with sessions := Assoc.put t.sessions key r }) := by
    rw [register, bind_apply, hstart]
    rfl
  obtain ⟨fs, hmetadata, hwrote⟩ := does_writeMetadata hs₂ key
    [("session_id", .str key), ("created_at", timeText t.clock),
      ("session_dir", .str x.folder.text),
      ("execution_count", .int 0), ("last_used", timeText t.clock)]
  have hs₃ := hs₂.folders hwrote.proper
  obtain ⟨fs', hjournal, hwrote'⟩ := does_writeJournal hs₃ key [("event", .str "session_started")]
  have henter : enter key others s =
      (.ok (), { t with sessions := Assoc.put t.sessions key r, folders := fs' }) := by
    rw [enter, bind_apply, hregister]
    refine ((does_need hattached.record).step _ others).trans ?_
    refine ((does_view _).step _ others).trans ?_
    exact (hmetadata.step _ others).trans (hjournal others)
  exact ⟨_, r, x, c, y, henter, hs₃.folders hwrote'.proper, Assoc.lookup_put_self _ _ _,
    { hattached with }, hreplies, hwrote'.has (hwrote.has hhas),
    { hsame with records := rfl, sessions := rfl }⟩

end Registry

/-- What stays of a state while a session is got: the settings and the runs, and of a run in flight
also its seed. -/
structure Sandbox.Kept (s t : Sandbox) : Prop where
  setup : t.setup = s.setup
  byInputs : t.byInputs = s.byInputs
  runs : t.runs = s.runs
  seed {i : Nat} {x : RunInfo} : s.DistinctRuns → s.runs[i]? = some x → x.inFlight = true →
    t.engineSeeds.lookup x.runId = s.engineSeeds.lookup x.runId

/-- The replies that processes are going to give, of those that there are and of those that are
still to be started. -/
def Sandbox.upcoming (s : Sandbox) : List (List Scripted) := s.replies ++ s.scripts.map (·.replies)

namespace Registry

variable {key : String}

/-- What getting a session leaves: a registered one that nobody holds, with a live interpreter, and
if it is new, with a folder. -/
structure Acquired (key : String) (s t : Sandbox) (r : Nat) (x : Record) (c : Nat) (y : Child) :
    Prop where
  sane : t.Sane
  kept : s.Kept t
  session : t.sessions.lookup key = some r
  attached : Attached t r x c y
  replies : y.script.replies ∈ [] :: s.upcoming
  folder : s.sessions.lookup key = none → t.folders.has x.folder = true

/-- What decides whether a session can be started is the same in two states. -/
structure StartsAlike (s t : Sandbox) : Prop where
  setup : t.setup = s.setup
  scripts : t.scripts = s.scripts
  clock : t.clock = s.clock

/-- When a session could be started, it can be entered also after others were taken down. -/
theorem enter_acquired {v w : Sandbox} (hw : w.Sane) {others' : Interrupts} {r₀ : Nat}
    {t₀ : Sandbox} (hstart : start key others' w = (.ok r₀, t₀)) (halike : StartsAlike s w)
    (hv : v.Sane) (hkept : s.Kept v) (halike' : StartsAlike s v) (others : Interrupts) :
    ∃ t r x c y, enter key others v = (.ok (), t) ∧ Acquired key s t r x c y := by
  obtain ⟨p, script, hp, hcomes, hnew⟩ :=
    newSession_of_start hw hstart hv (halike'.setup.trans halike.setup.symm)
      (halike'.scripts.trans halike.scripts.symm) (halike'.clock.trans halike.clock.symm) others
  rw [halike.setup, ← hkept.setup] at hp
  obtain ⟨t, r, x, c, y, henter, ht, hr, hattached, hreplies, hhas, hsame⟩ := enter_eq_ok hv hp hnew
  refine ⟨t, r, x, c, y, henter, ht, ?_, hr, hattached, ?_, fun _ => hhas⟩
  · refine ⟨hsame.setup.trans hkept.setup, hsame.byInputs.trans hkept.byInputs,
      hsame.runs.trans hkept.runs, fun hd hx hf => ?_⟩
    have hseeds : t.engineSeeds = v.engineSeeds := hsame.engineSeeds
    rw [hseeds]
    exact hkept.seed hd hx hf
  · rw [hreplies]
    rw [halike.scripts] at hcomes
    obtain hscript | rfl := comesUp_mem hcomes
    · exact List.mem_cons_of_mem _ (List.mem_append_right _ (List.mem_map_of_mem hscript))
    · exact List.mem_cons_self

/-- Either the session of a key is got as it is, or one is entered in its place: when the old one
cannot be used, or was swept, or was never registered. -/
theorem acquire_cases (hs : s.Sane) (hkey : key ≠ "") (hfree : Free key s) (others : Interrupts) :
    (∃ t r x c y, acquire Contexts.onSweep (some key) others s = (.ok key, t) ∧
      Acquired key s t r x c y) ∨
    ∃ v, v.Sane ∧ s.Kept v ∧ StartsAlike s v ∧ acquire Contexts.onSweep (some key) others s =
      (do enter key; pure key : Op String) others v := by
  obtain ⟨v, hsweep, hv, hswept⟩ := does_sweep hs
  have hkept : s.Kept v := ⟨by rw [hswept.tables], by rw [hswept.tables], hswept.runs, hswept.seed⟩
  have halike : StartsAlike s v :=
    ⟨by rw [hswept.tables], by rw [hswept.tables], by rw [hswept.tables]⟩
  have hacquire : acquire Contexts.onSweep (some key) others s =
      (do provide key; pure key : Op String) others v := by
    rw [acquire, hsweep.step, keyFor_some hkey, (does_pure key).step]
  have hprovided {x : Op Unit} {w : Sandbox} (h : provide key others v = x others w) :
      acquire Contexts.onSweep (some key) others s = (do x; pure key : Op String) others w := by
    rw [hacquire, bind_apply, bind_apply, h]
  have hfind : provide key others v = _ := (does_view (find? · key)).step _ others
  -- The cases are those of `provide`: no session, one that can be used, and one that cannot.
  cases hr : find? v key with
  | none =>
      rw [hr] at hfind
      exact .inr ⟨v, hv, hkept, halike, hprovided hfind⟩
  | some r =>
      rw [hr] at hfind
      obtain ⟨x, hx, -⟩ := hv.session hr
      have hx' : s.records[r]? = some x := by
        rw [← hswept.records]
        exact hx
      obtain ⟨use, w, huse, hw, hreplies, htables, hlive⟩ :=
        does_usable hv hx (hfree (hswept.session hr) hx')
      have hkept' : s.Kept w := by
        rw [htables]
        exact { hkept with }
      have hsession : w.sessions.lookup key = some r := by
        rw [htables]
        exact hr
      cases use with
      | true =>
          obtain ⟨z, c, y, hattached, -⟩ := hlive rfl
          have husable : provide key others v = (pure () : Op Unit) others w :=
            hfind.trans (huse.step _ others)
          refine .inl ⟨w, r, z, c, y, hprovided husable, hw, hkept', hsession, hattached, ?_,
            fun hnone => ?_⟩
          · have hmem : y.script.replies ∈ w.replies :=
              List.mem_map_of_mem (List.mem_of_getElem? hattached.child)
            rw [hreplies, hswept.replies] at hmem
            exact List.mem_cons_of_mem _ (List.mem_append_left _ hmem)
          · exact absurd ((hswept.session hr).symm.trans hnone) nofun
      | false =>
          obtain ⟨w', hreset, htorn⟩ := does_reset hw key
          have hreplaced : provide key others v = enter key others w' :=
            (hfind.trans (huse.step _ others)).trans (hreset.step _ others)
          refine .inr ⟨w', htorn.sane, ?_, ?_, hprovided hreplaced⟩
          · rw [htorn.tables]
            exact { hkept' with }
          · rw [htorn.tables, htables]
            exact { halike with }

theorem acquire_acquired (hs : s.Sane) (hkey : key ≠ "") (hfree : Free key s)
    {others others' : Interrupts} {r₀ : Nat} {t₀ : Sandbox}
    (hstart : start key others' s = (.ok r₀, t₀)) :
    ∃ t r x c y, acquire Contexts.onSweep (some key) others s = (.ok key, t) ∧
      Acquired key s t r x c y := by
  obtain hgot | ⟨v, hv, hkept, halike, hacquire⟩ := acquire_cases hs hkey hfree others
  · exact hgot
  · obtain ⟨t, r, x, c, y, henter, hacquired⟩ :=
      enter_acquired hs hstart ⟨rfl, rfl, rfl⟩ hv hkept halike others
    exact ⟨t, r, x, c, y, hacquire.trans (bind_of_eq_ok henter _), hacquired⟩

end Registry

end Rerun
