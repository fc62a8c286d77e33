import Rerun.Proofs.Session.Vacancy

/-!
Clients that have nothing to do with a context: they neither submit in it nor call for its session.
If it has no run and no session, it has none after their commands either, nor wherever others like
them act while a request of theirs is on its way (`Sandbox.guard_sparing`).
-/

namespace Rerun

open Sandbox Op

/-! ### Conditions that are kept up -/

namespace Op

variable {α β : Type} {P : Sandbox → Prop}

/-- An operation that keeps a condition up, when others do whom it lets act. -/
def Upholds (P : Sandbox → Prop) (x : Op α) : Prop :=
  ∀ ⦃others : Interrupts⦄, others.Guard P → ∀ s, P s → P (x others s).2

namespace Upholds

theorem interleave (commands : List Command) : Upholds P (Op.interleave commands) :=
  fun _ ho s hs => ho commands s hs

theorem pure (a : α) : Upholds P (pure a) := fun _ _ _ hs => hs

theorem bind {x : Op α} {f : α → Op β} (hx : Upholds P x) (hf : ∀ a, Upholds P (f a)) :
    Upholds P (x >>= f) := by
  intro others ho s hs
  have h := hx ho s hs
  rw [bind_apply]
  rcases hr : x others s with ⟨e | a, t⟩ <;> rw [hr] at h
  · exact h
  · exact hf a ho t h

theorem outcome {x : Op α} (hx : Upholds P x) : Upholds P (Op.outcome x) :=
  fun _ ho s hs => hx ho s hs

theorem rescue {x : Op α} {other : Failure → Op α} (hx : Upholds P x)
    (hother : ∀ e, Upholds P (other e)) : Upholds P (Op.rescue x other) := by
  intro others ho s hs
  have h := hx ho s hs
  unfold Op.rescue
  rcases hr : x others s with ⟨e | a, t⟩ <;> rw [hr] at h
  · exact hother e ho t h
  · exact h

theorem ensuring {x : Op α} {after : Op Unit} (hx : Upholds P x) (hafter : Upholds P after) :
    Upholds P (Op.ensuring x after) := by
  intro others ho s hs
  have h := hafter ho _ (hx ho s hs)
  unfold Op.ensuring
  dsimp only
  rcases hr : after others (x others s).2 with ⟨_ | _, t⟩ <;> rw [hr] at h <;> exact h

end Upholds

end Op

/-! ### Vacant contexts -/

variable {s t : Sandbox} {others : Interrupts} {c d key : String}

namespace Contexts

end Contexts

open Contexts

/-! ### Sessions and executions -/

namespace Registry

end Registry

namespace Execution

end Execution

/-! ### Runs and contexts -/

namespace Run

end Run

namespace Contexts

end Contexts

/-! ### Challenges and gradings -/

namespace Challenge

end Challenge

namespace Grading

end Grading

/-! ### Commands -/

namespace Service

def Route.spares (c : String) (body : Body) : Route → Bool
  | .submitRun =>
    match fitRequest RunRequest.shape body with
    | .ok j => (RunRequest.ofFields j).context != c
    | .error _ => true
  | _ => true

/-- Requests that do not submit in a context. -/
def spares (c method address : String) (body : Body) : Bool :=
  match targetOf (method.map Char.toUpper) 20 address with
  | .route r => r.spares c body
  | _ => true

end Service

/-- Plain commands that neither submit in a context nor call for its session. -/
def Command.spares (c : String) : Command → Bool
  | .submit d .. => d != c
  | .execute _ key .. => key != runKey c
  | .acquire asked => asked != some (runKey c)
  | .http method address body => Service.spares c method address body
  | command => command.isPlain

namespace Conversation

end Conversation

instance : IsPreorder Sandbox fun s t => s.Sane → s.StepsTo t where
  refl s _ := .refl s
  trans _ _ _ h h' hs := (h hs).trans (h' ((h hs).sane hs))

end Rerun
