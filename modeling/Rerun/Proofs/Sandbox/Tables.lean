import Rerun.Proofs.Sandbox.Processes

/-!
What operations on processes leave alone, also when they start processes or take them down: the
registry, the runs and the contexts, the challenges and the seeds are the same before and after
(`Op.OnProcesses`).
-/

namespace Rerun

open Sandbox

namespace Op

variable {α β : Type}

/-- An operation on processes. -/
def OnProcesses (x : Op α) :
    Prop := ∀ (others : Interrupts) (s : Sandbox), s.SameTables (x others s).2

namespace OnProcesses

theorem of_eq {x : Op α} (h : OnProcesses x) {others : Interrupts} {s t : Sandbox}
    {r : Except Failure α} (hx : x others s = (r, t)) : s.SameTables t := by
  have := h others s
  rwa [hx] at this

theorem of_passes {x : Op α} (h : Passes x) : OnProcesses x :=
  fun others s => (h.apply others s).tables

theorem change {f : Sandbox → Sandbox} (h : ∀ s : Sandbox, s.SameTables (f s)) :
    OnProcesses (Op.change f) :=
  fun _ s => h s

theorem bind {x : Op α} {f : α → Op β} (hx : OnProcesses x) (hf : ∀ a, OnProcesses (f a)) :
    OnProcesses (x >>= f) := by
  intro others s
  have h := hx others s
  rw [bind_apply]
  rcases hr : x others s with ⟨e | a, t⟩ <;> rw [hr] at h
  · exact h
  · exact h.trans (hf a others t)

theorem outcome {x : Op α} (hx : OnProcesses x) : OnProcesses (Op.outcome x) :=
  fun others s => hx others s

theorem setHandle (i : Nat) (f : Handle → Handle) : OnProcesses (Sandbox.setHandle i f) :=
  .change fun s => { SameTables.refl s with }

end OnProcesses

end Op

theorem Interpreter.pervades_onProcesses : Interpreter.Pervades fun x => x.OnProcesses where
  still h := .of_passes (.of_still h)
  bind := .bind
  child _ _ _ := .change fun s => { SameTables.refl s with }
  spawn _ _ _ := .change fun s => { SameTables.refl s with }
  openLog _ := .change fun s => { SameTables.refl s with }
  writeLog _ _ := .change fun s => { SameTables.refl s with }
  handle := .setHandle
  addHandle _ _ := .change fun s => { SameTables.refl s with }
  sleep d := .of_passes (.sleep d)

end Rerun
