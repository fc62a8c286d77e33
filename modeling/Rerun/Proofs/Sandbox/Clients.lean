import Rerun.Contexts
import Rerun.Proofs.Grading.Order
import Rerun.Proofs.Sandbox.Runs

/-!
What clients reach by name keeps the sandbox sound: submissions, challenges and gradings, and
whatever is done for them when a session is swept.
-/

namespace Rerun

open Sandbox Op

variable {alone : Prop} {s : Sandbox}

namespace Contexts

variable {c : String} {i : Nat}

/-! ### Leaving runs -/

/-- What is left of a state after a context has left its run: nothing of the run's session, and all
else but processes, folders, runs and seeds. -/
structure Left (c : String) (s t : Sandbox) : Prop where
  sound : t.Sound
  meanwhile : Meanwhile False s t
  context : t.contexts.lookup c = none
  session : (∃ i, s.contexts.lookup c = some i) → t.sessions.lookup (runKey c) = none
  replies : t.replies = s.replies
  tables : t = { s with
    contexts := t.contexts, runs := t.runs, sessions := t.sessions, folders := t.folders
    engineSeeds := t.engineSeeds, otherSeeds := t.otherSeeds
    children := t.children, handles := t.handles }

theorem left_of_tornDown (hs : s.Sound) (i : Nat) {seeds : List (String × Int)} {t : Sandbox}
    (ht : Registry.TornDown (runKey c) { s with
      contexts := Assoc.drop s.contexts c
      runs := s.runs.modify i fun r => { r with cancelled := true }
      engineSeeds := seeds } t) : Left c s t := by
  have hcontexts : t.contexts = Assoc.drop s.contexts c := by
    rw [ht.tables]
  have hsessions : t.sessions = Assoc.drop s.sessions (runKey c) := by
    rw [ht.tables]
  have hrecords : t.records = s.records := by rw [ht.tables]
  have hruns : t.runs = s.runs.modify i fun r => { r with cancelled := true } := by
    rw [ht.tables]
  have hnone : t.sessions.lookup (runKey c) = none := by
    rw [hsessions, Assoc.lookup_drop_self]
  have hkept {c' : String} {j : Nat} (hc : c' ≠ c) (h : s.contexts.lookup c' = some j) :
      t.contexts.lookup c' = some j := by
    rw [hcontexts, Assoc.lookup_drop_of_ne _ hc]
    exact h
  have hrun {j : Nat} {x : RunInfo} (hx : s.runs[j]? = some x) : ∃ y, t.runs[j]? = some y ∧
      y.source = x.source ∧ y.key = x.key ∧ y.timeout = x.timeout ∧ y.runId = x.runId ∧
      y.owner = x.owner ∧ y.inFlight = x.inFlight := by
    rw [hruns]
    refine ⟨_, Table.getElem?_modify_eq_some.mpr ⟨x, hx, rfl⟩, ?_⟩
    split
    · exact ⟨rfl, rfl, rfl, rfl, rfl, rfl⟩
    · exact ⟨rfl, rfl, rfl, rfl, rfl, rfl⟩
  have hlanded {j : Nat} {y : RunInfo} (hy : t.runs[j]? = some y) (hn : s.runs[j]? = none) :
      y.inFlight = false := by
    rw [hruns] at hy
    exact absurd (hy.symm.trans (Table.getElem?_modify_eq_none.mpr hn)) nofun
  refine { sound := { ht.sane with claim := ?_ }, meanwhile := ?_, context := ?_,
           session := fun _ => hnone, replies := ht.replies, tables := ?_ }
  · intro c' r x hk hx hl
    have hne : c' ≠ c := by
      rintro rfl
      exact absurd (hnone.symm.trans hk) nofun
    rw [hsessions] at hk
    rw [hrecords] at hx
    obtain ⟨j, y, hc', hy, hf⟩ := hs.claim (Assoc.lookup_of_lookup_drop hk) hx hl
    obtain ⟨z, hz, -, -, -, -, -, hf'⟩ := hrun hy
    exact ⟨j, z, hkept hne hc', hz, hf'.trans hf⟩
  · refine { setup := by rw [ht.tables], record := ?_, unlocked := ?_,
             handle := ht.handle, session := ?_, run := hrun, landed := hlanded, context := ?_ }
    · intro r x hx
      rw [hrecords]
      exact ⟨x, hx, rfl, rfl, rfl⟩
    · intro r y hy hn
      rw [hrecords] at hy
      exact absurd (hy.symm.trans hn) nofun
    · intro k r hk
      rw [hsessions] at hk
      exact .inr (Assoc.lookup_of_lookup_drop hk)
    · intro c' j x hc' hx hf
      by_cases hne : c' = c
      · refine .inr ⟨not_false, fun r hr => ?_⟩
        rw [hne, hnone] at hr
        exact absurd hr nofun
      · exact .inl (hkept hne hc')
  · rw [hcontexts, Assoc.lookup_drop_self]
  · rw [ht.tables]

/-- A context has left its run, whose session is still there. -/
def forsaken (s : Sandbox) (c : String) (i : Nat) (x : RunInfo) : Sandbox :=
  { s with
    contexts := Assoc.drop s.contexts c
    runs := s.runs.modify i fun r => { r with cancelled := true }
    engineSeeds := Assoc.drop s.engineSeeds x.runId }

theorem does_leave_none (hc : s.contexts.lookup c = none) : (leave c).Does s () s := by
  intro others
  simp [leave, bind_apply, Op.view, run?, hc]

/-- In a sane state a run can always be left: its session is taken down. -/
theorem does_leave_some (hs : s.Sane) {x : RunInfo} (hc : s.contexts.lookup c = some i)
    (hx : s.runs[i]? = some x) :
    ∃ t, (leave c).Does s () t ∧ Registry.TornDown (runKey c) (forsaken s c i x) t := by
  obtain ⟨x', hx', hkey, howner, -⟩ := hs.context hc
  obtain rfl := Option.some.inj (hx.symm.trans hx')
  obtain ⟨t, hcancel, ht⟩ := Run.does_cancel (hs.dropContext c) hx
  rw [hkey, Run.cancelled, howner] at ht
  refine ⟨t, .bind (does_view _) ?_, ht⟩
  have hrun : run? c s = some i := hc
  rw [hrun]
  exact .bind (does_change _) hcancel

/-- A run can always be left, also one in flight: its session is gone with it. -/
theorem does_leave (hs : s.Sound) (c : String) : ∃ t, (leave c).Does s () t ∧ Left c s t := by
  cases hc : s.contexts.lookup c with
  | none =>
      refine ⟨s, does_leave_none hc, hs, .refl s, hc, ?_, rfl, rfl⟩
      rintro ⟨i, hi⟩
      exact absurd (hc.symm.trans hi) (Option.some_ne_none i).symm
  | some i =>
      obtain ⟨x, hx, -⟩ := hs.context hc
      obtain ⟨t, hdoes, ht⟩ := does_leave_some hs.toSane hc hx
      exact ⟨t, hdoes, left_of_tornDown hs i ht⟩

theorem safe_leave (hs : s.Sound) (c : String) : (leave c).Safe False s := by
  obtain ⟨t, hdoes, ht⟩ := does_leave hs c
  exact .of_apply hdoes ⟨ht.sound, ht.meanwhile⟩

theorem keeps_abandon (c : String) : (abandon c).Keeps False := by
  refine .bind (.view _) fun found => ?_
  split
  · exact Registry.keeps_reset _
  · exact fun s hs => safe_leave hs c

/-! ### Sweeps -/

theorem keeps_forgetRun (c : String) : (forgetRun c).Keeps alone := by
  intro s hs
  refine .bind (.view hs _) id fun found s₁ hs₁ _ hg => ?_
  obtain ⟨rfl, rfl⟩ := hg.view
  split
  · exact .pure hs₁ _
  · rename_i i hc
    refine .bind (Keeps.need _ _ hs₁) id fun x s₂ hs₂ _ hg => ?_
    obtain ⟨hx, rfl⟩ := hg.need
    split
    · exact .pure hs₂ _
    · have hidle : x.inFlight = false := Bool.eq_false_iff.mpr ‹_›
      refine .bind (.change (hs₂.dropContext fun j y hc' hy => ?_)) id fun _ s₃ hs₃ _ _ =>
        Seeds.keeps_forget _ _ s₃ hs₃
      obtain rfl := Option.some.inj (hc.symm.trans hc')
      obtain rfl := Option.some.inj (hx.symm.trans hy)
      exact hidle

theorem keeps_setChallenge (i : Nat) {f : Challenge → Challenge} (hf : ∀ x, (f x).key = x.key) :
    (setChallenge i f).Keeps alone :=
  .change fun _ hs => hs.modifyChallenge i hf

theorem keeps_onSweep (key : String) : (onSweep key).Keeps alone :=
  Keeps.chains.onSweep (fun c _ => keeps_forgetRun c)
    (fun n => Keeps.chains.forgetChallenge (.change fun _ hs => hs.dropChallenge n)
      fun i => keeps_setChallenge i fun _ => rfl)
    (.change fun s hs => ⟨{ hs with }, { Meanwhile.refl s with }⟩)

/-! ### Submissions -/

def entered (s : Sandbox) (c : String) (x : RunInfo) : Sandbox :=
  { s with
    drawnIds := s.drawnIds + 1
    runs := s.runs ++ [x]
    contexts := Assoc.put s.contexts c s.runs.length }

def freshRun (s : Sandbox) (c : String) (source : Source) (values : List String)
    (timeout : Binary64) : RunInfo :=
  { source, key := runKey c, timeout, queue := { values }, runId := Run.idOf (s.drawnIds + 1)
    owner := .engine }

theorem newRun_of_leave {t : Sandbox} (hleave : (leave c).Does s () t) (source : Source)
    (values : List String) {timeout : Binary64}
    (ht : secondsOf t.setup.runTimeoutMs = .ok timeout) :
    (newRun c source values).Does s t.runs.length
      (entered t c (freshRun t c source values timeout)) := by
  have htimeout : (Op.ofExcept (secondsOf t.setup.runTimeoutMs)).Does t timeout t := by
    rw [ht]
    exact does_pure timeout
  exact .bind hleave (.bind (does_view _) (.bind htimeout
    (.bind (Run.does_create _ _ _ _ _) (.bind (does_change _) (does_pure _)))))

theorem newRun_of_leave_error {t : Sandbox} (hleave : (leave c).Does s () t) (source : Source)
    (values : List String) {e : Failure} (ht : secondsOf t.setup.runTimeoutMs = .error e)
    (others : Interrupts) : newRun c source values others s = (.error e, t) := by
  simp [newRun, bind_apply, hleave others, Op.view, ht, Op.ofExcept, Op.fail]

theorem does_newRun (hs : s.Sound) (c : String) (source : Source) (values : List String)
    {timeout : Binary64} (ht : secondsOf s.setup.runTimeoutMs = .ok timeout) :
    ∃ t, Left c s t ∧ (newRun c source values).Does s t.runs.length
      (entered t c (freshRun t c source values timeout)) := by
  obtain ⟨t, hleave, hleft⟩ := does_leave hs c
  refine ⟨t, hleft, newRun_of_leave hleave source values ?_⟩
  rw [hleft.meanwhile.setup]
  exact ht

theorem sound_entered {t : Sandbox} (hleft : Left c s t) (source : Source) (values : List String)
    {timeout : Binary64} (ht : secondsOf s.setup.runTimeoutMs = .ok timeout) :
    (entered t c (freshRun t c source values timeout)).Sound ∧
      Meanwhile False s (entered t c (freshRun t c source values timeout)) := by
  have htimeout : secondsOf t.setup.runTimeoutMs = .ok timeout := by
    rw [hleft.meanwhile.setup]
    exact ht
  obtain ⟨hs₁, hm₁⟩ : _ ∧ Meanwhile False t _ := hleft.sound.addRun
    (x := freshRun t c source values timeout) rfl rfl
  obtain ⟨hs₂, hm₂⟩ : _ ∧ Meanwhile False _ _ := hs₁.putContext
    (c := c) (i := t.runs.length) List.getElem?_concat_length rfl rfl htimeout hleft.context
  exact ⟨hs₂, (hleft.meanwhile.trans hm₁).trans hm₂⟩

theorem ends_newRun (hs : s.Sound) (c : String) (source : Source) (values : List String) :
    (newRun c source values).Ends s fun r t => t.Sound ∧ Meanwhile False s t ∧
      ∀ i, r = .ok i → t.contexts.lookup c = some i := by
  cases ht : secondsOf s.setup.runTimeoutMs with
  | ok timeout =>
      obtain ⟨t, hleft, hdoes⟩ := does_newRun hs c source values ht
      obtain ⟨hs', hm⟩ := sound_entered hleft source values ht
      refine .of_apply hdoes ⟨hs', hm, fun i hi => ?_⟩
      rw [← Except.ok.inj hi]
      exact Assoc.lookup_put_self _ _ _
  | error e =>
      obtain ⟨t, hleave, hleft⟩ := does_leave hs c
      have ht' : secondsOf t.setup.runTimeoutMs = .error e := by
        rw [hleft.meanwhile.setup]
        exact ht
      exact .of_apply (newRun_of_leave_error hleave source values ht')
        ⟨hleft.sound, hleft.meanwhile, nofun⟩

theorem keeps_ensureIdle (c : String) : (ensureIdle c).Keeps alone := by
  refine .bind (.view _) fun found => ?_
  split
  · exact .pure _
  · refine .bind (.need _) fun x => ?_
    split
    · exact .fail _
    · exact .pure _

theorem keeps_resumable (c : String) (source : Source) (prior : List String) :
    (resumable c source prior).Keeps alone := by
  refine .bind (.view _) fun found => ?_
  split
  · exact .pure _
  · exact .bind (.need _) fun x => .pure _

theorem gives_resumable {source : Source} {prior : List String} {t : Sandbox}
    (h : (resumable c source prior).Gives s (some i) t) :
    s.contexts.lookup c = some i ∧ t = s := by
  obtain ⟨others, -, h⟩ := h
  obtain ⟨found, s₁, hfound, h⟩ := bind_eq_ok.mp h
  obtain ⟨hc, rfl⟩ := view_eq_ok hfound
  cases found with
  | none => exact absurd (Except.ok.inj (Prod.mk.inj h).1) nofun
  | some j =>
      obtain ⟨x, s₂, hx, hlast⟩ := bind_eq_ok.mp h
      obtain ⟨-, rfl⟩ := need_eq_ok hx
      obtain ⟨hi, rfl⟩ := Prod.mk.inj hlast
      have hi := Except.ok.inj hi
      split at hi
      · rw [← Option.some.inj hi]
        exact ⟨hc.symm, rfl⟩
      · exact absurd hi nofun

theorem keeps_submit (c : String) (source : Source) (prior : List Json) (newest : Option Json) :
    (submit c source prior newest).Keeps False := by
  have hstart (values : List String) (echo : Option Json) :
      (do let i ← newRun c source values; Run.start onSweep i echo : Op Outcome).Keeps False := by
    intro s hs
    exact Ends.bind (ends_newRun hs c source values)
      (fun i t h => (Run.safe_start h.1 (h.2.2 i rfl) keeps_onSweep echo).mono
        fun r u hu => ⟨hu.1, h.2.1.trans hu.2⟩)
      fun e t h => ⟨h.1, h.2.1⟩
  refine .bind (keeps_ensureIdle c) fun _ => ?_
  split
  · exact hstart _ none
  · intro s hs
    refine .bind (keeps_resumable c source _ s hs) id fun found t ht _ hg => ?_
    cases found with
    | some i =>
        obtain ⟨hc, rfl⟩ := gives_resumable hg
        exact Run.safe_resume ht hc keeps_onSweep _
    | none => exact hstart _ _ t ht

/-! ### Challenges -/

theorem keeps_challengeOf (n : String) : (challengeOf n).Keeps alone := by
  refine .bind (.view _) fun found => ?_
  split
  · exact .pure _
  · intro s hs
    refine .bind (.view hs _) id fun ms s₁ hs₁ _ _ => ?_
    refine .bind (Keeps.ofExcept _ s₁ hs₁) id fun timeout s₂ hs₂ _ _ => ?_
    refine .bind (.view hs₂ _) id fun i s₃ hs₃ _ hg => ?_
    obtain ⟨rfl, rfl⟩ := hg.view
    exact .bind (.change (hs₃.addChallenge n rfl)) id fun _ s₄ hs₄ _ _ => .pure hs₄ _

end Contexts

namespace Challenge

theorem passes_describe (i : Nat) (reply : List (String × Json)) : (describe i reply).Passes := by
  refine .bind (.need _) fun c => ?_
  dsimp only
  split
  · exact .bind (.ofExcept _) fun line => .pure _
  · exact .fail _

theorem passes_fieldsOf (j : Json) : (fieldsOf j).Passes := by
  unfold fieldsOf
  split
  · exact .pure _
  · exact .fail _

theorem keeps_teardown (i : Nat) : (teardown i).Keeps alone :=
  .bind (Contexts.keeps_setChallenge i fun _ => rfl) fun _ => .bind (.need _) fun _ =>
    Registry.keeps_reset _

theorem claimed (hs : s.Sound) {i : Nat} {x : Challenge} (hx : s.challengeTable[i]? = some x)
    (t : Sandbox) : Registry.Claimed x.key t := by
  obtain ⟨n, hn⟩ := hs.challengeKey hx
  rw [hn]
  exact Registry.claimed_of_ne (Contexts.challengeKey_ne_runKey n) t

theorem keeps_load {listener : String → Op Unit} (hl : ∀ key, (listener key).Keeps False) (i : Nat)
    (source : Source) : (load listener i source).Keeps False := by
  refine .bind (keeps_teardown i) fun _ => .bind (Contexts.keeps_setChallenge i fun _ => rfl)
    fun _ => ?_
  intro s hs
  refine .bind (Keeps.need _ s hs) id fun c s₁ hs₁ _ hg => ?_
  obtain ⟨hc, rfl⟩ := hg.need
  refine .bind (Registry.keeps_acquire hl _ _ hs₁) id fun _ s₂ hs₂ _ _ => ?_
  refine .bind (.rescue (Registry.safe_holding hs₂ (claimed hs₁ hc s₂) fun h =>
    (Op.pervades_requests.post h _ _ _).keeps) id fun e t ht _ => .fail ht _) id
    fun reply s₃ hs₃ _ _ => ?_
  refine Keeps.bind (.of_passes (passes_fieldsOf reply)) (fun fields => ?_) s₃ hs₃
  split
  · exact .bind (keeps_teardown i) fun _ => .bind (.of_passes (passes_describe i fields))
      fun reason => .fail _
  · exact .bind (Contexts.keeps_setChallenge i fun _ => rfl) fun _ => .pure _

theorem keeps_callFailure (i : Nat) (function : String) (e : Failure) :
    (callFailure i function e).Keeps alone := by
  unfold callFailure
  split
  · exact .bind (Contexts.keeps_setChallenge i fun _ => rfl) fun _ => .fail _
  · split
    · exact .bind (Contexts.keeps_setChallenge i fun _ => rfl) fun _ => .fail _
    · exact .fail _

theorem keeps_invoke (i : Nat) (function : String) (args : List Json) :
    (invoke i function args).Keeps False := by
  intro s hs
  refine .bind (Keeps.need _ s hs) id fun c s₁ hs₁ _ hg => ?_
  obtain ⟨hc, rfl⟩ := hg.need
  split
  · exact .fail hs₁ _
  · refine .bind (.rescue (Registry.safe_holding hs₁ (claimed hs₁ hc _) fun h =>
      (Op.pervades_requests.post h _ _ _).keeps) id fun e t ht _ =>
      keeps_callFailure i function e t ht) id fun reply s₂ hs₂ _ _ => ?_
    refine Keeps.bind (Contexts.keeps_setChallenge i fun _ => by rfl) (fun _ => ?_) s₂ hs₂
    refine .bind (.of_passes (passes_fieldsOf reply)) fun fields =>
      .bind (Contexts.keeps_setChallenge i fun _ => rfl) fun _ => ?_
    split
    · exact .bind (.of_passes (passes_describe i fields)) fun reason => .fail _
    · exact .pure _

end Challenge

/-! ### Gradings -/

namespace Grading

theorem sessionKey_ne_runKey (id c : String) : sessionKey id ≠ Contexts.runKey c :=
  Contexts.ne_runKey (by simp [sessionKey, String.toList_append]) c

theorem keeps_one {listener : String → Op Unit} (hl : ∀ key, (listener key).Keeps True)
    (r : Request) : (one listener r).Keeps False := by
  refine .bind (.ofExcept _) fun checker => .bind .drawId fun id => .bind (.view _) fun usual => ?_
  refine .bind (.ensuring (.outcome fun s hs => ?_) (Registry.keeps_reset _)) fun _ => .ofExcept _
  exact Execution.safe_execute hs hl (fun _ => .pure ()) (sessionKey_ne_empty id)
    (Registry.claimed_of_ne (sessionKey_ne_runKey id) s)

end Grading

end Rerun
