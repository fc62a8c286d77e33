import Mathlib.Tactic.Choose
import Rerun.Proofs.Sandbox.Privacy

/-!
What a client does itself, apart from what others do in between. An operation is unfolded into the
turns of its client (`Turns`): each ends the operation, or lets others act and goes on from wherever
they leave the sandbox. The turns do not depend on who the others are, so what is counted along them
is the client's own doing alone.

What is counted here is how often a program is handed out: the runs that processes are asked for and
the programs that are submitted to the judge. The counts are bounds, so that the rules add them up.
-/

namespace Rerun

open Sandbox Op

def Sandbox.submissions (s : Sandbox) : Nat := s.remoteRequests.countP (·.method = "POST")

structure Sandbox.SameHandouts (s t : Sandbox) : Prop where
  runsAsked : t.runsAsked = s.runsAsked
  submissions : t.submissions = s.submissions

instance : IsPreorder Sandbox SameHandouts where
  refl _ := ⟨rfl, rfl⟩
  trans _ _ _ h h' := ⟨h'.runsAsked.trans h.runsAsked, h'.submissions.trans h.submissions⟩

theorem Sandbox.Recalls.sameHandouts {s t : Sandbox} (h : s.Recalls t) : s.SameHandouts t where
  runsAsked := h.runsAsked
  submissions := by rw [submissions, submissions, h.remoteRequests]

/-- An operation of a client, turn by turn. -/
inductive Turns (α : Type) where
  | ends (r : Except Failure α) (t : Sandbox)
  /-- Others act in the state that the client has come to, and the client goes on from theirs. -/
  | yields (t : Sandbox) (commands : List Command) (next : Sandbox → Turns α)

namespace Turns

variable {α β : Type}

def play (others : Interrupts) : Turns α → Except Failure α × Sandbox
  | ends r t => (r, t)
  | yields t commands next => (next (others commands t)).play others

def andThen (k : Except Failure α → Sandbox → Turns β) : Turns α → Turns β
  | ends r t => k r t
  | yields t commands next => yields t commands fun u => (next u).andThen k

theorem play_andThen (others : Interrupts) (k : Except Failure α → Sandbox → Turns β)
    (c : Turns α) :
    (c.andThen k).play others = (k (c.play others).1 (c.play others).2).play others := by
  induction c with
  | ends r t => rfl
  | yields t commands next ih => exact ih _

/-- In its turns from a state on, the client asks for so many runs and submits so many programs at
most. What others do between the turns does not count. -/
inductive HandsOut : (runs submissions : Nat) → Sandbox → Turns α → Prop
  | ends {a b : Nat} {s t : Sandbox} {r : Except Failure α} :
      t.runsAsked ≤ s.runsAsked + a → t.submissions ≤ s.submissions + b →
      HandsOut a b s (ends r t)
  | yields {a b a' b' : Nat} {s t : Sandbox} {commands : List Command} {next : Sandbox → Turns α} :
      t.runsAsked ≤ s.runsAsked + a → t.submissions ≤ s.submissions + b →
      (∀ u, HandsOut a' b' u (next u)) → HandsOut (a + a') (b + b') s (yields t commands next)

theorem HandsOut.after {a b a' b' : Nat} {s t : Sandbox} {c : Turns α}
    (h : c.HandsOut a' b' t) (hruns : t.runsAsked ≤ s.runsAsked + a)
    (hsubmissions : t.submissions ≤ s.submissions + b) : c.HandsOut (a + a') (b + b') s := by
  cases h with
  | ends hr hp => exact .ends (by omega) (by omega)
  | yields hr hp hnext =>
      rw [← Nat.add_assoc, ← Nat.add_assoc]
      exact .yields (by omega) (by omega) hnext

theorem HandsOut.of_recalls {a b : Nat} {s t : Sandbox} {c : Turns α} (h : c.HandsOut a b t)
    (ht : s.Recalls t) : c.HandsOut a b s := by
  have h' := h.after (a := 0) (b := 0) (Nat.le_of_eq ht.runsAsked)
    (Nat.le_of_eq ht.sameHandouts.submissions)
  rwa [Nat.zero_add, Nat.zero_add] at h'

theorem HandsOut.andThen {a b a' b' : Nat} {s : Sandbox} {c : Turns α}
    {k : Except Failure α → Sandbox → Turns β} (h : c.HandsOut a b s)
    (hk : ∀ r t, (k r t).HandsOut a' b' t) : (c.andThen k).HandsOut (a + a') (b + b') s := by
  induction h with
  | ends hr hp => exact (hk _ _).after hr hp
  | yields hr hp _ ih =>
      rw [Nat.add_assoc, Nat.add_assoc]
      exact .yields hr hp ih

/-- When the others hand nothing out themselves, the counts are all that there is. -/
theorem HandsOut.total {a b : Nat} {s : Sandbox} {c : Turns α} {others : Interrupts}
    (h : c.HandsOut a b s) (hothers : ∀ commands t, SameHandouts t (others commands t)) :
    (c.play others).2.runsAsked ≤ s.runsAsked + a ∧
      (c.play others).2.submissions ≤ s.submissions + b := by
  induction h with
  | ends hr hp => exact ⟨hr, hp⟩
  | @yields a b a' b' s t commands next hr hp _ ih =>
      obtain ⟨hsame, hsame'⟩ := hothers commands t
      obtain ⟨hr', hp'⟩ := ih (others commands t)
      constructor
      · exact Nat.le_trans hr' (by omega)
      · exact Nat.le_trans hp' (by omega)

end Turns

/-! ### Operations -/

namespace Op

variable {α β : Type} {a b a' b' : Nat} {s t : Sandbox}

/-- The turns of an operation from a state on, whoever the others are. -/
def Unfolds (x : Op α) (s : Sandbox) (c : Turns α) : Prop := ∀ others, x others s = c.play others

/-- An operation in which a client asks for so many runs and submits so many programs at most. -/
def HandsOut (runs submissions : Nat) (x : Op α) (s : Sandbox) : Prop :=
  ∃ c, x.Unfolds s c ∧ c.HandsOut runs submissions s

namespace HandsOut

theorem alone {x : Op α} (hdeaf : x.Deaf)
    (hruns : ∀ others, (x others s).2.runsAsked ≤ s.runsAsked + a)
    (hsubmissions : ∀ others, (x others s).2.submissions ≤ s.submissions + b) :
    x.HandsOut a b s :=
  ⟨.ends (x (fun _ t => t) s).1 (x (fun _ t => t) s).2, fun _ => hdeaf.deaf _ _ s,
    .ends (hruns _) (hsubmissions _)⟩

theorem of_along {x : Op α} (h : x.Along SameHandouts) (s : Sandbox) : x.HandsOut 0 0 s :=
  .alone h.isDeaf (fun others => Nat.le_of_eq (h.holds others s).runsAsked)
    fun others => Nat.le_of_eq (h.holds others s).submissions

theorem of_recalls {x : Op α} (h : x.Recalls) (s : Sandbox) : x.HandsOut 0 0 s :=
  of_along (h.mono fun _ _ => Sandbox.Recalls.sameHandouts) s

theorem interleave (commands : List Command) (s : Sandbox) :
    (Op.interleave commands).HandsOut 0 0 s := by
  refine ⟨.yields s commands fun u => .ends (.ok ()) u, fun _ => rfl, ?_⟩
  have hrest (u : Sandbox) : (Turns.ends (.ok ()) u).HandsOut 0 0 u :=
    .ends (Nat.le_refl _) (Nat.le_refl _)
  exact (Turns.HandsOut.yields (Nat.le_refl _) (Nat.le_refl _) hrest :
    Turns.HandsOut (0 + 0) (0 + 0) s _)

theorem andThen {x : Op α} {y : Op β} {k : Except Failure α → Op β} (hx : x.HandsOut a b s)
    (hk : ∀ r t, (k r).HandsOut a' b' t)
    (heq : ∀ others, y others s = k (x others s).1 others (x others s).2) :
    y.HandsOut (a + a') (b + b') s := by
  obtain ⟨c, hc, hcount⟩ := hx
  choose d hd hcount' using hk
  refine ⟨c.andThen d, fun others => ?_, hcount.andThen hcount'⟩
  rw [heq, Turns.play_andThen, hc others]
  exact hd _ _ others

theorem fail (e : Failure) (s : Sandbox) : (Op.fail e : Op α).HandsOut a b s :=
  .alone (.fail e) (fun _ => Nat.le_add_right _ _) fun _ => Nat.le_add_right _ _

theorem bind {x : Op α} {f : α → Op β} (hx : x.HandsOut a b s)
    (hf : ∀ v t, (f v).HandsOut a' b' t) : (x >>= f).HandsOut (a + a') (b + b') s := by
  refine hx.andThen (k := fun r => Op.ofExcept r >>= f) (fun r t => ?_) fun others => ?_
  · cases r with
    | ok v => exact hf v t
    | error e => exact .fail e t
  · rw [bind_apply]
    rcases x others s with ⟨_ | _, _⟩ <;> rfl

theorem outcome {x : Op α} (hx : x.HandsOut a b s) : (Op.outcome x).HandsOut a b s :=
  hx.andThen (k := fun r => pure r) (fun r t => of_along (.pure r) t) fun _ => rfl

theorem ite {p : Prop} [Decidable p] {x y : Op α} (hx : x.HandsOut a b s)
    (hy : y.HandsOut a b s) : (if p then x else y).HandsOut a b s := by
  split
  · exact hx
  · exact hy

theorem quiet_bind {x : Op α} {f : α → Op β} (hx : x.HandsOut 0 0 s)
    (hf : ∀ v t, (f v).HandsOut a b t) : (x >>= f).HandsOut a b s := by
  have h := hx.bind hf
  rwa [Nat.zero_add, Nat.zero_add] at h

theorem bind_quiet {x : Op α} {f : α → Op β} (hx : x.HandsOut a b s)
    (hf : ∀ v t, (f v).HandsOut 0 0 t) : (x >>= f).HandsOut a b s :=
  hx.bind hf

end HandsOut

end Op

end Rerun
