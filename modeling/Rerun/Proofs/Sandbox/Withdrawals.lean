import Rerun.Proofs.Sandbox.Turns

/-!
Operations whose client withdraws when something has happened while its request was on its way
(`Op.Withdraws`). It comes to its end in the turn in which it finds that out: it sends no other
request, and of what it still does, only so much is left as a relation allows.

Where an operation goes on after a request, what comes next has to end at once in such a state
(`Op.Quits`); so the rules for putting operations together say for both of them what is needed.
-/

namespace Rerun

open Sandbox Op

variable {α β : Type} {I : Sandbox → Prop} {R R' : Sandbox → Sandbox → Sandbox → Prop}
  {W : Sandbox → Sandbox → Prop}

namespace Turns

/-- Turns of a client that withdraws wherever the others leave a state of some kind. What it does in
its last turn is related to the state in which it let them act. -/
inductive Withdraws (I : Sandbox → Prop) (R : Sandbox → Sandbox → Sandbox → Prop) : Turns α → Prop
  | ends (r : Except Failure α) (t : Sandbox) : Withdraws I R (ends r t)
  | yields {t : Sandbox} {commands : List Command} {next : Sandbox → Turns α} :
      (∀ u, I u → ∃ r v, next u = ends r v ∧ R t u v) → (∀ u, Withdraws I R (next u)) →
      Withdraws I R (yields t commands next)

theorem Withdraws.mono {c : Turns α} (h : c.Withdraws I R)
    (hR : ∀ t u v, I u → R t u v → R' t u v) : c.Withdraws I R' := by
  induction h with
  | ends r t => exact .ends r t
  | yields hlast _ ih =>
      refine .yields (fun u hu => ?_) ih
      obtain ⟨r, v, heq, hv⟩ := hlast u hu
      exact ⟨r, v, heq, hR _ _ _ hu hv⟩

/-- What may be done after a last turn, as a part of it: the relation covers it, and the state stays
of its kind. -/
structure Covers (I : Sandbox → Prop) (R : Sandbox → Sandbox → Sandbox → Prop)
    (W : Sandbox → Sandbox → Prop) : Prop where
  stays {t u v : Sandbox} : I u → R t u v → I v
  keeps {t u : Sandbox} : I t → W t u → I u
  more {t u v w : Sandbox} : R t u v → W v w → R t u w

theorem Withdraws.andThen {c : Turns α} {k : Except Failure α → Sandbox → Turns β}
    (h : c.Withdraws I R) (hcovers : Covers I R W) (hk : ∀ r t, (k r t).Withdraws I R)
    (hlast : ∀ r t, I t → ∃ r' u, k r t = .ends r' u ∧ W t u) : (c.andThen k).Withdraws I R := by
  induction h with
  | ends r t => exact hk r t
  | yields hturn _ ih =>
      refine .yields (fun u hu => ?_) ih
      obtain ⟨r, v, heq, hv⟩ := hturn u hu
      obtain ⟨r', w, heq', hw⟩ := hlast r v (hcovers.stays hu hv)
      exact ⟨r', w, (congrArg (Turns.andThen k) heq).trans heq', hcovers.more hv hw⟩

end Turns

namespace Op

variable {s : Sandbox}

/-- An operation whose client withdraws when the others leave a state of some kind. -/
def Withdraws (I : Sandbox → Prop) (R : Sandbox → Sandbox → Sandbox → Prop) (x : Op α)
    (s : Sandbox) : Prop :=
  ∃ c, x.Unfolds s c ∧ c.Withdraws I R

/-- An operation whose client withdraws, and does not even begin when the state is of that kind: it
is over in one turn. -/
def Quits (I : Sandbox → Prop) (R : Sandbox → Sandbox → Sandbox → Prop)
    (W : Sandbox → Sandbox → Prop) (x : Op α) (s : Sandbox) : Prop :=
  ∃ c, x.Unfolds s c ∧ c.Withdraws I R ∧ (I s → ∃ r t, c = .ends r t ∧ W s t)

theorem Along.of_does {x : Op α} {a : α} {t : Sandbox} (h : x.Along W) (hdoes : x.Does s a t) :
    W s t := by
  have hholds := h.holds (fun _ s => s) s
  rwa [hdoes] at hholds

theorem Passes.along {x : Op α} (h : x.Passes) : x.Along Sandbox.Passes where
  deaf others others' s := by
    obtain ⟨r, t, hx, -⟩ := h s
    exact (hx others).trans (hx others').symm
  holds := h.apply

namespace Quits

theorem withdraws {x : Op α} (h : x.Quits I R W s) : x.Withdraws I R s := by
  obtain ⟨c, hc, hw, -⟩ := h
  exact ⟨c, hc, hw⟩

theorem of_withdraws {x : Op α} (h : x.Withdraws I R s)
    (hquits : I s → ∃ r t, (∀ others, x others s = (r, t)) ∧ W s t) : x.Quits I R W s := by
  by_cases hs : I s
  · obtain ⟨r, t, hx, hw⟩ := hquits hs
    exact ⟨.ends r t, hx, .ends r t, fun _ => ⟨r, t, rfl, hw⟩⟩
  · obtain ⟨c, hc, hw⟩ := h
    exact ⟨c, hc, hw, fun hs' => absurd hs' hs⟩

theorem of_along [IsPreorder Sandbox W] {x : Op α} (h : x.Along W) (s : Sandbox) :
    x.Quits I R W s := by
  let result := x (fun _ t => t) s
  exact ⟨.ends result.1 result.2, fun others => h.deaf others _ s, .ends _ _,
    fun _ => ⟨_, _, rfl, h.holds _ s⟩⟩

end Quits

namespace Withdraws

theorem mono {x : Op α} (h : x.Withdraws I R s) (hR : ∀ t u v, I u → R t u v → R' t u v) :
    x.Withdraws I R' s := by
  obtain ⟨c, hc, hw⟩ := h
  exact ⟨c, hc, hw.mono hR⟩

theorem alone {x : Op α} (h : x.Deaf) (s : Sandbox) : x.Withdraws I R s :=
  (Quits.of_along (W := fun _ _ => True) h s).withdraws

theorem interleave (commands : List Command) (hR : ∀ u, I u → R s u u) :
    (Op.interleave commands).Withdraws I R s :=
  ⟨.yields s commands fun u => .ends (.ok ()) u, fun _ => rfl,
    .yields (fun u hu => ⟨_, _, rfl, hR u hu⟩) fun u => .ends (.ok ()) u⟩

theorem ite {p : Prop} [Decidable p] {x y : Op α} (hx : x.Withdraws I R s)
    (hy : y.Withdraws I R s) : (if p then x else y).Withdraws I R s := by
  split
  · exact hx
  · exact hy

theorem after {x : Op α} {f : α → Op β} (hx : x.Deaf)
    (hf : ∀ a t, x.Does s a t → (f a).Withdraws I R t) : (x >>= f).Withdraws I R s := by
  rcases hr : x (fun _ t => t) s with ⟨e | a, t⟩
  · have hfails : ∀ others, x others s = (.error e, t) := fun others =>
      (hx.deaf others _ s).trans hr
    refine ⟨.ends (.error e) t, fun others => ?_, .ends _ _⟩
    rw [bind_apply, hfails others]
    rfl
  · have hdoes : x.Does s a t := fun others => (hx.deaf others _ s).trans hr
    obtain ⟨c, hc, hw⟩ := hf a t hdoes
    exact ⟨c, fun others => (hdoes.step f others).trans (hc others), hw⟩

theorem passing {x : Op α} {f : α → Op β} (hx : x.Passes)
    (hf : ∀ a t, s.Passes t → (f a).Withdraws I R t) : (x >>= f).Withdraws I R s :=
  .after hx.along.isDeaf fun a t h => hf a t (hx.along.of_does h)

theorem andThen {x : Op α} {y : Op β} {k : Except Failure α → Op β} (hx : x.Withdraws I R s)
    (hcovers : Turns.Covers I R W) (hk : ∀ r t, (k r).Quits I R W t)
    (heq : ∀ others, y others s = k (x others s).1 others (x others s).2) : y.Withdraws I R s := by
  obtain ⟨c, hc, hw⟩ := hx
  choose d hd hw' hlast using hk
  refine ⟨c.andThen d, fun others => ?_, hw.andThen hcovers hw' fun r t ht => hlast r t ht⟩
  rw [heq, Turns.play_andThen, hc others]
  exact hd _ _ others

theorem bind [IsPreorder Sandbox W] {x : Op α} {f : α → Op β} (hx : x.Withdraws I R s)
    (hcovers : Turns.Covers I R W) (hf : ∀ a t, (f a).Quits I R W t) :
    (x >>= f).Withdraws I R s := by
  refine hx.andThen hcovers (k := fun r => Op.ofExcept r >>= f) (fun r t => ?_) fun others => ?_
  · cases r with
    | ok a => exact hf a t
    | error e => exact .of_along (.fail e) t
  · rw [bind_apply]
    rcases x others s with ⟨_ | _, _⟩ <;> rfl

theorem outcome [IsPreorder Sandbox W] {x : Op α} (hx : x.Withdraws I R s)
    (hcovers : Turns.Covers I R W) : (Op.outcome x).Withdraws I R s :=
  hx.andThen hcovers (k := fun r => pure r) (fun r t => .of_along (.pure r) t) fun _ => rfl

/-- What is done at the end however an operation ends belongs to its last turn. -/
theorem ensuring [IsPreorder Sandbox W] {x : Op α} {last : Op Unit} (hx : x.Withdraws I R s)
    (hcovers : Turns.Covers I R W) (hlast : last.Along W) :
    (Op.ensuring x last).Withdraws I R s := by
  refine hx.andThen hcovers (k := fun r => last >>= fun _ => Op.ofExcept r) (fun r t =>
    .of_along (.bind hlast fun _ => .ofExcept r) t) fun others => ?_
  rw [bind_apply]
  unfold Op.ensuring
  dsimp only
  rcases x others s with ⟨r, u⟩
  rcases hlast' : last others u with ⟨e | _, v⟩
  · rfl
  · cases r <;> rfl

end Withdraws

theorem Quits.bind [IsPreorder Sandbox W] {x : Op α} {f : α → Op β} (hx : x.Quits I R W s)
    (hcovers : Turns.Covers I R W) (hf : ∀ a t, (f a).Quits I R W t) :
    (x >>= f).Quits I R W s := by
  refine .of_withdraws (hx.withdraws.bind hcovers hf) fun hs => ?_
  obtain ⟨c, hc, -, hlast⟩ := hx
  obtain ⟨r, t, rfl, ht⟩ := hlast hs
  cases r with
  | error e =>
      refine ⟨.error e, t, fun others => ?_, ht⟩
      rw [bind_apply, hc others]
      rfl
  | ok a =>
      obtain ⟨d, hd, -, hlast'⟩ := hf a t
      obtain ⟨r', u, rfl, hu⟩ := hlast' (hcovers.keeps hs ht)
      exact ⟨r', u, fun others => (bind_of_eq_ok (hc others) f).trans (hd others),
        trans_of W ht hu⟩

end Op

end Rerun
