import Rerun.Proofs.Sandbox.Clients

/-!
What may happen to the sandbox besides the steps that are told apart later (`Sandbox.Drifts`): no
session, handle, run or seed comes or goes, no process is started, and none comes back to life. It
is somewhat more than that time passes: runs and challenges may change in what does not matter here,
and identifiers may be drawn.
-/

namespace Rerun

open Sandbox Op

theorem Child.Fades.ended (y : Child) : y.Fades (Process.ended y) where
  folder := rfl
  stubborn := rfl
  health := id
  alive h := by
    simp only [Process.ended, Process.aliveAt, Bool.and_eq_true] at h
    exact h.1.1

theorem Process.Fade.ending {cs : List Child} (child : Option Nat) :
    Fade cs (Process.ending cs child) := by
  cases child with
  | none => exact .refl cs
  | some c => exact .modify .ended

/-- What tells a run from others, and whether it is in flight. -/
def RunInfo.mark (r : RunInfo) : String × SeedOwner × Bool := (r.runId, r.owner, r.inFlight)

/-- A state that others have come to while requests were on their way, programs ran and time
passed. -/
structure Sandbox.Drifts (s t : Sandbox) : Prop where
  setup : t.setup = s.setup
  scripts : t.scripts = s.scripts
  seeds : t.seeds = s.seeds
  nextSeed : t.nextSeed = s.nextSeed
  handles : t.handles = s.handles
  records : t.records = s.records
  sessions : t.sessions = s.sessions
  engineSeeds : t.engineSeeds = s.engineSeeds
  contexts : t.contexts = s.contexts
  marks : t.runs.map RunInfo.mark = s.runs.map RunInfo.mark
  children : Process.Fade s.children t.children
  drawnIds : s.drawnIds ≤ t.drawnIds
  sane : s.Sane → t.Sane

namespace Sandbox.Drifts

variable {s t u : Sandbox}

theorem refl (s : Sandbox) : s.Drifts s :=
  ⟨rfl, rfl, rfl, rfl, rfl, rfl, rfl, rfl, rfl, rfl, .refl _, Nat.le_refl _, id⟩

theorem trans (h : s.Drifts t) (h' : t.Drifts u) : s.Drifts u where
  setup := h'.setup.trans h.setup
  scripts := h'.scripts.trans h.scripts
  seeds := h'.seeds.trans h.seeds
  nextSeed := h'.nextSeed.trans h.nextSeed
  handles := h'.handles.trans h.handles
  records := h'.records.trans h.records
  sessions := h'.sessions.trans h.sessions
  engineSeeds := h'.engineSeeds.trans h.engineSeeds
  contexts := h'.contexts.trans h.contexts
  marks := h'.marks.trans h.marks
  children := h.children.trans h'.children
  drawnIds := Nat.le_trans h.drawnIds h'.drawnIds
  sane := h'.sane ∘ h.sane

theorem of_passes (h : s.Passes t) : s.Drifts t where
  setup := h.tables.setup
  scripts := h.scripts
  seeds := h.tables.seeds
  nextSeed := h.tables.nextSeed
  handles := h.handles
  records := h.tables.records
  sessions := h.tables.sessions
  engineSeeds := h.tables.engineSeeds
  contexts := h.tables.contexts
  marks := congrArg _ h.tables.runs
  children := h.children
  drawnIds := Nat.le_of_eq h.tables.drawnIds.symm
  sane := h.sane

/-! ### Single changes -/

theorem modifyRun (s : Sandbox) (i : Nat) {f : RunInfo → RunInfo}
    (hf : ∀ x, (f x).key = x.key ∧ (f x).timeout = x.timeout ∧ (f x).runId = x.runId ∧
      (f x).owner = x.owner ∧ (f x).inFlight = x.inFlight) :
    s.Drifts { s with runs := s.runs.modify i f } :=
  { refl s with
    marks := Table.map_modify (fun x => by
      obtain ⟨-, -, hid, howner, hflight⟩ := hf x
      rw [RunInfo.mark, RunInfo.mark, hid, howner, hflight]) _ _
    sane := fun hs => hs.modifyRun i fun x =>
      ⟨(hf x).1, (hf x).2.1, (hf x).2.2.1, (hf x).2.2.2.1⟩ }

theorem modifyChallenge (s : Sandbox) (i : Nat) {f : Challenge → Challenge}
    (hf : ∀ x, (f x).key = x.key) :
    s.Drifts { s with challengeTable := s.challengeTable.modify i f } :=
  { refl s with sane := fun hs => hs.modifyChallenge i hf }

theorem dropChallenge (s : Sandbox) (n : String) :
    s.Drifts { s with challenges := Assoc.drop s.challenges n } :=
  { refl s with sane := fun hs => hs.dropChallenge n }

end Sandbox.Drifts

/-! ### Operations -/

namespace Op

variable {α β : Type}

/-- An operation that does no more than what requests, programs and the clock do. -/
def Drifts (x : Op α) : Prop := ∀ (others : Interrupts) (s : Sandbox), s.Drifts (x others s).2

namespace Drifts

theorem of_passes {x : Op α} (h : Passes x) : Drifts x :=
  fun others s => .of_passes (h.apply others s)

theorem pure (a : α) : Drifts (pure a) := of_passes (.pure a)

theorem ofExcept (r : Except Failure α) : Drifts (Op.ofExcept r) := of_passes (.ofExcept r)

theorem view (f : Sandbox → α) : Drifts (Op.view f) := of_passes (.view f)

theorem need (find : Sandbox → Option α) : Drifts (Sandbox.need find) := of_passes (.need find)

theorem change {f : Sandbox → Sandbox} (h : ∀ s : Sandbox, s.Drifts (f s)) : Drifts (Op.change f) :=
  fun _ s => h s

theorem bind {x : Op α} {f : α → Op β} (hx : Drifts x) (hf : ∀ a, Drifts (f a)) :
    Drifts (x >>= f) := by
  intro others s
  have h := hx others s
  rw [bind_apply]
  rcases hr : x others s with ⟨e | a, t⟩ <;> rw [hr] at h
  · exact h
  · exact h.trans (hf a others t)

theorem chains : Chains fun x => x.Drifts := ⟨fun h => of_passes (.of_still h), .bind⟩

/-! ### Primitive operations -/

theorem setRun (i : Nat) {f : RunInfo → RunInfo}
    (hf : ∀ x, (f x).key = x.key ∧ (f x).timeout = x.timeout ∧ (f x).runId = x.runId ∧
      (f x).owner = x.owner ∧ (f x).inFlight = x.inFlight) : Drifts (Sandbox.setRun i f) :=
  .change fun s => .modifyRun s i hf

theorem setChallenge (i : Nat) {f : Challenge → Challenge} (hf : ∀ x, (f x).key = x.key) :
    Drifts (Sandbox.setChallenge i f) :=
  .change fun s => .modifyChallenge s i hf

theorem drawId : Drifts Sandbox.drawId := fun _ s =>
  { Sandbox.Drifts.refl s with
    drawnIds := Nat.le_succ _
    sane := fun hs => { hs with
      ids := by
        obtain ⟨ns, hns, hsorted, hle⟩ := hs.ids
        exact ⟨ns, hns, hsorted, fun n hn => Nat.le_succ_of_le (hle n hn)⟩ } }

end Drifts

end Op

/-! ### The registry -/

namespace Registry

theorem drifts_keyFor (key : Option String) : (keyFor key).Drifts :=
  Drifts.chains.keyFor .drawId key

end Registry

end Rerun
