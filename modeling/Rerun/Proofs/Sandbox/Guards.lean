import Rerun.Proofs.Sandbox.Recalls

/-!
What an operation and all that happens meanwhile keep up together (`Op.Guards`). A condition that
each command of a client keeps up holds wherever clients act: not only when a command is over, but
also at the points of its requests where others get their turn.
-/

namespace Rerun

open Sandbox

variable {P : Sandbox → Prop} {others others' : Interrupts}

def Interrupts.Guard (P : Sandbox → Prop) (others : Interrupts) : Prop :=
  ∀ commands s, P s → P (others commands s)

def Interrupts.AgreeOn (P : Sandbox → Prop) (others others' : Interrupts) : Prop :=
  ∀ commands s, P s → others commands s = others' commands s

namespace Op

variable {α β : Type}

/-- An operation that keeps a condition up, when others do whom it lets act, and lets them act only
where the condition holds. -/
def Guards (P : Sandbox → Prop) (x : Op α) : Prop :=
  ∀ ⦃others others' : Interrupts⦄, others.Guard P → others.AgreeOn P others' → ∀ s, P s →
    x others s = x others' s ∧ P (x others s).2

/-- Steps along which a condition is kept up, if it holds. -/
abbrev Carries (P : Sandbox → Prop) (x : Op α) : Prop := x.Along fun s t => P s → P t

instance : IsPreorder Sandbox fun s t => P s → P t where
  refl _ := id
  trans _ _ _ h h' := h' ∘ h

theorem Carries.guards {x : Op α} (h : x.Carries P) : x.Guards P :=
  fun others others' _ _ s hs => ⟨h.deaf others others' s, h.holds others s hs⟩

namespace Guards

theorem pure (a : α) : Guards P (pure a) := Carries.guards (.pure a)

theorem fail (e : Failure) : Guards P (Op.fail e : Op α) := Carries.guards (.fail e)

theorem view (f : Sandbox → α) : Guards P (Op.view f) := Carries.guards (.view f)

theorem need (find : Sandbox → Option α) :
    Guards P (Sandbox.need find) := Carries.guards (.need find)

theorem interleave (commands : List Command) : Guards P (Op.interleave commands) := by
  intro others others' hothers hagree s hs
  refine ⟨?_, hothers commands s hs⟩
  unfold Op.interleave
  rw [hagree commands s hs]

theorem bind {x : Op α} {f : α → Op β} (hx : Guards P x) (hf : ∀ a, Guards P (f a)) :
    Guards P (x >>= f) := by
  intro others others' hothers hagree s hs
  obtain ⟨heq, ht⟩ := hx hothers hagree s hs
  rw [bind_apply, bind_apply, ← heq]
  rcases h : x others s with ⟨e | a, t⟩ <;> rw [h] at ht
  · exact ⟨rfl, ht⟩
  · exact hf a hothers hagree t ht

theorem chains : Chains fun x => x.Guards P := ⟨fun h => Carries.guards (.of_still h), .bind⟩

theorem outcome {x : Op α} (hx : Guards P x) : Guards P (Op.outcome x) := by
  intro others others' hothers hagree s hs
  obtain ⟨heq, ht⟩ := hx hothers hagree s hs
  refine ⟨?_, ht⟩
  unfold Op.outcome
  rw [heq]

theorem rescue {x : Op α} {other : Failure → Op α} (hx : Guards P x)
    (hother : ∀ e, Guards P (other e)) : Guards P (Op.rescue x other) := by
  intro others others' hothers hagree s hs
  obtain ⟨heq, ht⟩ := hx hothers hagree s hs
  unfold Op.rescue
  rw [← heq]
  rcases h : x others s with ⟨e | a, t⟩ <;> rw [h] at ht
  · exact hother e hothers hagree t ht
  · exact ⟨rfl, ht⟩

end Guards

end Op

end Rerun
