import Rerun.Proofs.Sandbox.Tables
import Rerun.Execution

/-!
What has nothing to do with runs. Processes, folders, the judge, the clock and the sessions are no
business of the runs, of their places in contexts or of their seeds, nor of the queues of single
executions. So an execution comes to no more for them than the others do meanwhile, its listener
does, and its count of values does: any relation between an earlier and a later state that looks at
nothing else (`Sandbox.IsFrame`) holds along the execution when it holds along those.
-/

namespace Rerun

open Sandbox

/-- Two states with the same runs, in the same contexts and with the same seeds, and with the same
queues of single executions. -/
structure Sandbox.SameRuns (s t : Sandbox) : Prop where
  runs : t.runs = s.runs
  queues : t.queues = s.queues
  contexts : t.contexts = s.contexts
  engineSeeds : t.engineSeeds = s.engineSeeds
  otherSeeds : t.otherSeeds = s.otherSeeds

namespace Sandbox.SameRuns

variable {s t : Sandbox}

theorem refl (s : Sandbox) : s.SameRuns s := ⟨rfl, rfl, rfl, rfl, rfl⟩

theorem of_tables (h : s.SameTables t) : s.SameRuns t :=
  ⟨h.runs, h.queues, h.contexts, h.engineSeeds, h.otherSeeds⟩

end Sandbox.SameRuns

/-- A relation between an earlier and a later state that has to do with runs and queues only. -/
structure Sandbox.IsFrame (R : Sandbox → Sandbox → Prop) : Prop where
  same {s t : Sandbox} : s.SameRuns t → R s t
  trans {s t u : Sandbox} : R s t → R t u → R s u

/-- An operation along which a relation holds, when it holds along what others do. -/
def Op.Frames {α : Type} (R : Sandbox → Sandbox → Prop) (x : Op α) : Prop :=
  ∀ ⦃others : Interrupts⦄, (∀ commands s, R s (others commands s)) → ∀ s, R s (x others s).2

variable {α β : Type} {R : Sandbox → Sandbox → Prop}

theorem Op.Frames.interleave (commands : List Command) : (Op.interleave commands).Frames R :=
  fun _ hothers s => hothers commands s

theorem Op.Frames.outcome {x : Op α} (hx : x.Frames R) : (Op.outcome x).Frames R :=
  fun _ hothers s => hx hothers s

theorem Op.Frames.ite {p : Prop} [Decidable p] {x y : Op α} (hx : x.Frames R) (hy : y.Frames R) :
    (if p then x else y).Frames R := by
  split
  · exact hx
  · exact hy

namespace Sandbox.IsFrame

variable (hR : IsFrame R)

include hR

theorem onProcesses {x : Op α} (h : x.OnProcesses) : x.Frames R :=
  fun others _ s => hR.same (.of_tables (h others s))

theorem passes {x : Op α} (h : x.Passes) : x.Frames R := hR.onProcesses (.of_passes h)

theorem change {f : Sandbox → Sandbox} (h : ∀ s : Sandbox, s.SameRuns (f s)) :
    (Op.change f).Frames R :=
  fun _ _ s => hR.same (h s)

theorem pure (a : α) : (pure a : Op α).Frames R := hR.passes (.pure a)

theorem fail (e : Failure) : (Op.fail e : Op α).Frames R := hR.passes (.fail e)

theorem ofExcept (r : Except Failure α) : (Op.ofExcept r).Frames R := hR.passes (.ofExcept r)

theorem view (f : Sandbox → α) : (Op.view f).Frames R := hR.passes (.view f)

theorem need (find : Sandbox → Option α) : (Sandbox.need find).Frames R :=
  hR.passes (.need find)

/-- The relation holds along what comes first, and along whatever comes after it. -/
theorem bind_at {x : Op α} {f : α → Op β} {others : Interrupts} {s : Sandbox}
    (hothers : ∀ commands s, R s (others commands s)) (hx : R s (x others s).2)
    (hf : ∀ a, (f a).Frames R) : R s ((x >>= f) others s).2 := by
  rw [Op.bind_apply]
  rcases hr : x others s with ⟨e | a, t⟩ <;> rw [hr] at hx
  · exact hx
  · exact hR.trans hx (hf a hothers t)

theorem bind {x : Op α} {f : α → Op β} (hx : x.Frames R) (hf : ∀ a, (f a).Frames R) :
    (x >>= f).Frames R :=
  fun _ hothers s => hR.bind_at hothers (hx hothers s) hf

theorem rescue {x : Op α} {other : Failure → Op α} (hx : x.Frames R)
    (hother : ∀ e, (other e).Frames R) : (Op.rescue x other).Frames R := by
  intro others hothers s
  have h := hx hothers s
  unfold Op.rescue
  rcases hr : x others s with ⟨e | a, t⟩ <;> rw [hr] at h
  · exact hR.trans h (hother e hothers t)
  · exact h

theorem ensuring {x : Op α} {after : Op Unit} (hx : x.Frames R) (hafter : after.Frames R) :
    (Op.ensuring x after).Frames R := by
  intro others hothers s
  have h := hR.trans (hx hothers s) (hafter hothers (x others s).2)
  unfold Op.ensuring
  dsimp only
  rcases hlast : after others (x others s).2 with ⟨_ | _, t⟩ <;> rw [hlast] at h <;> exact h

theorem composes : Op.Composes fun x => x.Frames R :=
  ⟨⟨fun h => hR.passes (.of_still h), hR.bind⟩, hR.passes, .interleave, hR.rescue⟩

theorem setRecord (r : Nat) (f : Record → Record) : (Sandbox.setRecord r f).Frames R :=
  hR.change fun _ => ⟨rfl, rfl, rfl, rfl, rfl⟩

theorem drawId : Sandbox.drawId.Frames R :=
  fun _ _ _ => hR.same ⟨rfl, rfl, rfl, rfl, rfl⟩

end Sandbox.IsFrame

/-- A request comes to no more for the runs than what others do meanwhile. -/
theorem Op.Requests.frames (hR : IsFrame R) {x : Op α} (h : x.Requests) : x.Frames R :=
  h.of_composes hR.composes

/-! ### Sessions -/

/-- What has to do with runs and queues only holds along all that is done to sessions. -/
theorem Registry.pervades_frames (hR : IsFrame R) : Registry.Pervades fun x => x.Frames R where
  toPervades := Interpreter.pervades_onProcesses.imp hR.composes.toChains hR.onProcesses
  outcome := .outcome
  enlist _ _ := hR.change fun _ => ⟨rfl, rfl, rfl, rfl, rfl⟩
  record r _ _ := hR.setRecord r _
  journal _ _ := hR.change fun _ => ⟨rfl, rfl, rfl, rfl, rfl⟩
  metadata _ _ := hR.change fun _ => ⟨rfl, rfl, rfl, rfl, rfl⟩
  sessions _ := hR.change fun _ => ⟨rfl, rfl, rfl, rfl, rfl⟩
  remove _ := hR.change fun _ => ⟨rfl, rfl, rfl, rfl, rfl⟩
  count r := hR.setRecord r _

namespace Registry

/-- What of the runs does not depend on sweeps holds along the getting of a session after them. -/
theorem frames_got (hR : IsFrame R) (key : Option String) :
    (do
      let k ← keyFor key
      provide k
      pure k : Op String).Frames R :=
  hR.bind ((pervades_frames hR).keyFor hR.drawId key) fun k =>
    hR.bind ((pervades_frames hR).provide k) fun _ => hR.pure k

theorem frames_post (hR : IsFrame R) (key path : String) (body : Json) (timeout : Binary64) :
    (holding key fun h => Interpreter.post h path body timeout).Frames R :=
  (pervades_frames hR).holding key fun h =>
    (Op.pervades_requests.post h path body timeout).frames hR

end Registry

/-! ### Executions -/

namespace Execution

variable {consumed : Int → Op Unit}

theorem frames_executeLocal (hR : IsFrame R) (hconsumed : ∀ n, (consumed n).Frames R)
    (r : Request) (key : String) : (executeLocal consumed r key).Frames R := by
  have hP := Registry.pervades_frames hR
  exact hP.toChains.executeLocal (Registry.frames_post hR key _ _ _).outcome
    (hP.toChains.settle hconsumed fun entry _ => hP.note key (.obj entry))

end Execution

end Rerun
