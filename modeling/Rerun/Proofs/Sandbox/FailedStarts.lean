import Rerun.Contexts
import Rerun.Proofs.Sandbox.Safe

/-!
When a session is not got for want of an interpreter. Nothing on the way to a session fails for that
reason (`Op.Equipped`) but the starting of its interpreter, and that only when two starts, one after
the other, have failed (`Registry.FailedStarts`).
-/

namespace Rerun

open Sandbox

namespace Op

variable {α β : Type} {others : Interrupts} {s t : Sandbox}

theorem bind_eq_error {x : Op α} {f : α → Op β} {e : Failure} :
    (x >>= f) others s = (.error e, t) ↔ x others s = (.error e, t) ∨
      ∃ a u, x others s = (.ok a, u) ∧ f a others u = (.error e, t) := by
  rw [bind_apply]
  rcases x others s with ⟨e' | a, u⟩
  · simp
  · refine ⟨fun h => .inr ⟨a, u, rfl, h⟩, ?_⟩
    rintro (h | ⟨a', u', h, h'⟩)
    · exact absurd (Prod.mk.inj h).1 nofun
    · obtain ⟨ha, rfl⟩ := Prod.mk.inj h
      obtain rfl := Except.ok.inj ha
      exact h'

theorem fail_eq_error {e e' : Failure} (h : (Op.fail e : Op α) others s = (.error e', t)) :
    e' = e ∧ t = s :=
  ⟨(Except.error.inj (Prod.mk.inj h).1).symm, (Prod.mk.inj h).2.symm⟩

/-- An operation that fails, if it does, as `E` says. -/
def FailsAs (E : Failure → Prop) (x : Op α) : Prop :=
  ∀ ⦃others : Interrupts⦄ ⦃s t : Sandbox⦄ ⦃e : Failure⦄, x others s = (.error e, t) → E e

/-- An operation that never fails for want of an interpreter. -/
abbrev Equipped (x : Op α) : Prop := x.FailsAs (·.kind ≠ .initialization)

namespace FailsAs

variable {E : Failure → Prop}

theorem pure (a : α) : (pure a : Op α).FailsAs E := fun _ _ _ _ h => absurd (Prod.mk.inj h).1 nofun

theorem view (f : Sandbox → α) : (Op.view f).FailsAs E :=
  fun _ _ _ _ h => absurd (Prod.mk.inj h).1 nofun

theorem change (f : Sandbox → Sandbox) : (Op.change f).FailsAs E :=
  fun _ _ _ _ h => absurd (Prod.mk.inj h).1 nofun

theorem fail {e : Failure} (he : E e) : (Op.fail e : Op α).FailsAs E := by
  intro others s t e' h
  rw [(fail_eq_error h).1]
  exact he

theorem ofExcept {r : Except Failure α} (hr : ∀ e, r = .error e → E e) :
    (Op.ofExcept r).FailsAs E := by
  cases r with
  | ok a => exact .pure a
  | error e => exact .fail (hr e rfl)

theorem need (hE : ∀ name, E (.other name)) (find : Sandbox → Option α) :
    (Sandbox.need find).FailsAs E := by
  intro others s t e h
  unfold Sandbox.need at h
  split at h
  · exact absurd (Prod.mk.inj h).1 nofun
  · rw [← Except.error.inj (Prod.mk.inj h).1]
    exact hE _

theorem bind {x : Op α} {f : α → Op β} (hx : x.FailsAs E) (hf : ∀ a, (f a).FailsAs E) :
    (x >>= f).FailsAs E := by
  intro others s t e h
  obtain h | ⟨a, u, -, h⟩ := bind_eq_error.mp h
  · exact hx h
  · exact hf a h

theorem ite {p : Prop} [Decidable p] {x y : Op α} (hx : x.FailsAs E) (hy : y.FailsAs E) :
    (if p then x else y).FailsAs E := by
  split
  · exact hx
  · exact hy

theorem mono {E' : Failure → Prop} {x : Op α} (hx : x.FailsAs E) (hE : ∀ e, E e → E' e) :
    x.FailsAs E' :=
  fun _ _ _ _ h => hE _ (hx h)

end FailsAs

end Op

open Op

/-- A failure that is not worded here. -/
def Failure.IsOther (e : Failure) : Prop := ∃ name, e = .other name

theorem Op.FailsAs.equipped {α : Type} {x : Op α} (hx : x.FailsAs Failure.IsOther) : x.Equipped :=
  hx.mono fun _ h => by
    obtain ⟨name, rfl⟩ := h
    exact nofun

theorem Op.fails_need {α : Type} (find : Sandbox → Option α) :
    (Sandbox.need find).FailsAs Failure.IsOther :=
  .need (fun name => ⟨name, rfl⟩) find

/-! ### Processes -/

namespace Process

theorem fails_poll (c : Nat) : (poll c).FailsAs Failure.IsOther :=
  .bind (fails_need _) fun _ => .bind (.change _) fun _ => .pure _

theorem fails_health (c : Nat) : (health c).FailsAs Failure.IsOther := by
  refine .bind (fails_need _) fun y => ?_
  split
  · exact .bind (.change _) fun _ => .pure _
  · exact .pure _

end Process

namespace Interpreter

theorem fails_kill (h : Nat) : (kill h).FailsAs Failure.IsOther := by
  refine .bind (fails_need _) fun x => ?_
  split
  · exact .pure _
  · exact .bind (Process.fails_poll _) fun alive => .ite (.change _) (.pure _)

theorem fails_reset (h : Nat) : (reset h).FailsAs Failure.IsOther :=
  .bind (fails_kill h) fun _ => .change _

theorem fails_probe (h : Nat) : (probe h).FailsAs Failure.IsOther := by
  refine .bind (fails_need _) fun x => ?_
  split
  · exact .pure _
  · refine .bind (Process.fails_poll _) fun alive => ?_
    refine .ite (.pure _) (.bind (Process.fails_health _) fun answer => ?_)
    split
    · exact .pure _
    · exact .pure _

end Interpreter

/-! ### Sessions -/

namespace Registry

variable {others : Interrupts} {s t : Sandbox} {key : String} {e : Failure}

theorem fails_writeJournal (key : String) (entry : List (String × Json)) :
    (writeJournal key entry).FailsAs Failure.IsOther := by
  refine .bind (.view _) fun s => .ite (.pure _) ?_
  split
  · exact .pure _
  · exact .bind (fails_need _) fun info => .change _

theorem fails_writeMetadata (key : String) (fields : List (String × Json)) :
    (writeMetadata key fields).FailsAs Failure.IsOther := by
  refine .bind (.view _) fun s => .ite (.pure _) ?_
  split
  · exact .pure _
  · refine .bind (fails_need _) fun info => .bind (.ofExcept fun e he => ?_) fun merged => .change _
    unfold mergeMetadata at he
    split at he
    · exact absurd he nofun
    · exact ⟨_, (Except.error.inj he).symm⟩
    · exact absurd he nofun

theorem fails_reset (key : String) : (reset key).FailsAs Failure.IsOther := by
  refine .bind (.view _) fun found => ?_
  split
  · exact .pure _
  · refine .bind (fails_writeJournal _ _) fun _ => .bind (fails_need _) fun info => ?_
    refine .bind (.view _) fun now => .bind (fails_writeMetadata _ _) fun _ => ?_
    exact .bind (.change _) fun _ => .bind (Interpreter.fails_reset _) fun _ =>
      .bind (.view _) fun drop => .ite (.change _) (.pure _)

theorem fails_usable (r : Nat) : (usable r).FailsAs Failure.IsOther := by
  refine .bind (fails_need _) fun info => ?_
  split
  · exact .pure _
  · refine .bind (Interpreter.fails_probe _) fun alive => .ite ?_ (.pure _)
    exact .bind (.view _) fun now => .bind (.change _) fun _ => .pure _
  · exact .pure _

/-- So many starts of an interpreter, one after the other, each of which failed, and what each had
started was taken down. -/
inductive FailedStarts (folder : Path) (timeout : Binary64) (others : Interrupts) :
    Nat → Sandbox → Sandbox → Prop
  | none (s : Sandbox) : FailedStarts folder timeout others 0 s s
  | more {n h : Nat} {s t u v w : Sandbox} {e : Failure} :
      Interpreter.create folder timeout others s = (.ok h, t) →
      Interpreter.start h others t = (.error e, u) → e.kind = .initialization →
      Interpreter.reset h others u = (.ok (), v) →
      FailedStarts folder timeout others n v w → FailedStarts folder timeout others (n + 1) s w

/-- Want of an interpreter is the failure of all starts that there are. -/
theorem startTwice_failed {folder : Path} {timeout : Binary64} {attempts : Nat} {last : Failure}
    (h : startTwice folder timeout key attempts last others s = (.error e, t))
    (hkind : e.kind = .initialization) :
    FailedStarts folder timeout others attempts s t ∧ ∃ reason, e = .startFailed key reason := by
  induction attempts generalizing s last with
  | zero =>
      obtain ⟨rfl, rfl⟩ := fail_eq_error h
      exact ⟨.none _, _, rfl⟩
  | succ attempts ih =>
      obtain h | ⟨i, u, hcreate, h⟩ := bind_eq_error.mp h
      · exact absurd (Prod.mk.inj h).1 nofun
      obtain h | ⟨result, v, hstart, h⟩ := bind_eq_error.mp h
      · exact absurd (Prod.mk.inj h).1 nofun
      obtain ⟨hresult, hv⟩ := Prod.mk.inj hstart
      cases result with
      | ok _ =>
          have hadded : Equipped (do
              let index ← Op.view (·.records.length)
              Op.change fun s => { s with records := s.records ++
                [{ handle := i, folder, state := .ready, lastUsed := s.clock }] }
              pure index : Op Nat) := .bind (.view _) fun _ => .bind (.change _) fun _ => .pure _
          exact absurd hkind (hadded h)
      | error e' =>
          dsimp only at h
          split at h
          · rename_i hkind'
            obtain h | ⟨_, w, hreset, h⟩ := bind_eq_error.mp h
            · exact absurd hkind ((Interpreter.fails_reset i).equipped h)
            obtain ⟨hrest, hreason⟩ := ih h
            exact ⟨.more hcreate (Prod.ext (Except.ok.inj hresult) hv) hkind' hreset hrest, hreason⟩
          · rw [(fail_eq_error h).1] at hkind
            exact absurd hkind ‹_›

/-- Two starts have failed, and that is why the session of a key could not be got. -/
structure NotStarted (key : String) (others : Interrupts) (s t : Sandbox) (e : Failure) : Prop where
  failure : ∃ reason, e = .startFailed key reason
  starts : ∃ folder, folderOf s.setup key = .ok folder ∧
    FailedStarts folder s.setup.startupTimeout others 2 s t

theorem start_failed (h : start key others s = (.error e, t)) (hkind : e.kind = .initialization) :
    NotStarted key others s t e := by
  obtain h | ⟨setup, u, hview, h⟩ := bind_eq_error.mp h
  · exact absurd (Prod.mk.inj h).1 nofun
  obtain ⟨rfl, hu⟩ := view_eq_ok hview
  subst u
  obtain h | ⟨folder, u, hfolder, h⟩ := bind_eq_error.mp h
  · have hequipped : (Op.ofExcept (folderOf s.setup key)).Equipped := .ofExcept fun e he => by
      unfold folderOf at he
      split at he
      · rw [← Except.error.inj he]
        exact nofun
      · exact absurd he nofun
    exact absurd hkind (hequipped h)
  · cases hf : folderOf s.setup key with
    | error e' =>
        rw [hf] at hfolder
        exact absurd (Prod.mk.inj hfolder).1 nofun
    | ok p =>
        rw [hf] at hfolder
        obtain ⟨hp, rfl⟩ := Prod.mk.inj hfolder
        obtain rfl := Except.ok.inj hp
        obtain ⟨hstarts, hreason⟩ := startTwice_failed h hkind
        exact ⟨hreason, p, hf, hstarts⟩

theorem enter_failed (h : enter key others s = (.error e, t)) (hkind : e.kind = .initialization) :
    NotStarted key others s t e := by
  obtain h | ⟨r, u, -, h⟩ := bind_eq_error.mp h
  · obtain h | ⟨r, u, -, h⟩ := bind_eq_error.mp h
    · exact start_failed h hkind
    · have hput : Equipped (do
          Op.change fun s => { s with sessions := Assoc.put s.sessions key r }
          pure r : Op Nat) := .bind (.change _) fun _ => .pure _
      exact absurd hkind (hput h)
  · have hwrites : Equipped (do
        let info ← record r
        let t ← now
        writeMetadata key [("session_id", .str key), ("created_at", timeText t),
          ("session_dir", .str info.folder.text), ("execution_count", .int 0),
          ("last_used", timeText t)]
        writeJournal key [("event", .str "session_started")] : Op Unit) :=
      FailsAs.equipped <| .bind (fails_need _) fun info => .bind (.view _) fun now =>
        .bind (fails_writeMetadata _ _) fun _ => fails_writeJournal _ _
    exact absurd hkind (hwrites h)

theorem provide_failed (h : provide key others s = (.error e, t))
    (hkind : e.kind = .initialization) : ∃ u, NotStarted key others u t e := by
  obtain h | ⟨found, u, hview, h⟩ := bind_eq_error.mp h
  · exact absurd (Prod.mk.inj h).1 nofun
  split at h
  · exact ⟨u, enter_failed h hkind⟩
  · obtain h | ⟨use, v, -, h⟩ := bind_eq_error.mp h
    · exact absurd hkind ((fails_usable _).equipped h)
    split at h
    · exact absurd (Prod.mk.inj h).1 nofun
    · obtain h | ⟨_, w, -, h⟩ := bind_eq_error.mp h
      · exact absurd hkind ((fails_reset key).equipped h)
      · exact ⟨w, enter_failed h hkind⟩

end Registry

/-! ### Sweeps -/

namespace Contexts

theorem fails_onSweep (key : String) : (onSweep key).FailsAs Failure.IsOther := by
  have hrun (c : String) : (forgetRun c).FailsAs Failure.IsOther := by
    refine .bind (.view _) fun found => ?_
    split
    · exact .pure _
    · exact .bind (fails_need _) fun r => .ite (.pure _) (.bind (.change _) fun _ => .change _)
  have hchallenge (n : String) : (forgetChallenge n).FailsAs Failure.IsOther := by
    refine .bind (.view _) fun found => ?_
    split
    · exact .pure _
    · exact .bind (.change _) fun _ => .change _
  have hforget : (forgetFor (splitKey key)).FailsAs Failure.IsOther := by
    unfold forgetFor
    split
    · exact hrun _
    · exact hchallenge _
    · exact .pure _
  exact .bind hforget fun _ => .change _

end Contexts

namespace Registry

variable {others : Interrupts} {s t : Sandbox} {key : String} {e : Failure}

theorem fails_sweepAll (before : Sandbox) (listed : List (String × Nat)) :
    (sweepAll Contexts.onSweep before listed).FailsAs Failure.IsOther := by
  induction listed with
  | nil => exact .pure _
  | cons entry rest ih =>
      exact .bind (fails_need _) fun info => .ite
        (.bind (fails_reset _) fun _ => .bind (Contexts.fails_onSweep _) fun _ => ih) ih

theorem fails_sweep : (sweep Contexts.onSweep).FailsAs Failure.IsOther :=
  .bind (.view _) fun s => fails_sweepAll s s.sessions

theorem fails_keyFor {E : Failure → Prop} (key : Option String) : (keyFor key).FailsAs E := by
  have hanonymous : keyFor.anonymous.FailsAs E :=
    .bind (fun _ _ _ _ h => absurd (Prod.mk.inj h).1 nofun) fun _ => .pure _
  unfold keyFor
  split
  · exact .ite hanonymous (.pure _)
  · exact hanonymous

/-- Want of an interpreter means that two starts have failed, after everything else that is done to
get a session. -/
theorem acquire_failed (h : acquire Contexts.onSweep (some key) others s = (.error e, t))
    (hkind : e.kind = .initialization) :
    ∃ k u, (key ≠ "" → k = key) ∧ NotStarted k others u t e := by
  obtain h | ⟨_, u, -, h⟩ := bind_eq_error.mp h
  · exact absurd hkind (fails_sweep.equipped h)
  obtain h | ⟨k, v, hk, h⟩ := bind_eq_error.mp h
  · exact absurd hkind ((fails_keyFor _).equipped h)
  have hsame : key ≠ "" → k = key := by
    intro hne
    rw [keyFor, if_neg hne] at hk
    exact (Except.ok.inj (Prod.mk.inj hk).1).symm
  obtain h | ⟨_, w, -, h⟩ := bind_eq_error.mp h
  · obtain ⟨w, hw⟩ := provide_failed h hkind
    exact ⟨k, w, hsame, hw⟩
  · exact absurd (Prod.mk.inj h).1 nofun

end Registry

end Rerun
