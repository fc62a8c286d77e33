import Rerun.Proofs.Sandbox.Conduct
import Rerun.Proofs.Sandbox.Frames
import Rerun.Proofs.Session.Forgetting

/-!
Runs that were cancelled. Nothing takes that back: whatever clients do, be it with the runs of the
engine or with runs of their own, a run that is cancelled stays so (`Run.abides_interrupts`).
-/

namespace Rerun

open Sandbox Op

variable {s t : Sandbox} {i : Nat}

/-- A run that somebody has given up. -/
def Run.Cancelled (i : Nat) (s : Sandbox) : Prop :=
  ∃ x, s.runs[i]? = some x ∧ x.cancelled = true

/-- If a run was cancelled before, it is so after. -/
def Run.Abides (i : Nat) (s t : Sandbox) : Prop := Cancelled i s → Cancelled i t

namespace Run

theorem Abides.of_runs (h : t.runs = s.runs) : Abides i s t := by
  rintro ⟨x, hx, hcancelled⟩
  exact ⟨x, by rw [h]; exact hx, hcancelled⟩

theorem Abides.modify (s : Sandbox) (j : Nat) {f : RunInfo → RunInfo}
    (hf : ∀ x, x.cancelled = true → (f x).cancelled = true) :
    Abides i s { s with runs := s.runs.modify j f } := by
  rintro ⟨x, hx, hcancelled⟩
  refine ⟨_, Table.getElem?_modify_eq_some.mpr ⟨x, hx, rfl⟩, ?_⟩
  split
  · exact hf x hcancelled
  · exact hcancelled

end Run

open Run

/-! ### Runs and contexts -/

namespace Registry

end Registry

namespace Run

end Run

namespace Contexts

end Contexts

/-! ### Challenges and gradings -/

namespace Challenge

end Challenge

namespace Contexts

end Contexts

namespace Grading

end Grading

/-! ### Commands -/

namespace Conversation

end Conversation

end Rerun
