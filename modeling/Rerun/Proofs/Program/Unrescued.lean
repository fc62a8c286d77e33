import Rerun.Proofs.Program.Leads
import Rerun.Proofs.Program.Placement

/-!
Requests for values that nobody catches. A program without a handler for such a request stops at its
first read that finds no value left, so that an attempt at it stops for one read at most
(`Serving.demands_attempt`).
-/

namespace Rerun

namespace Program

/-- What a program may do that does not go on after the request of a read. -/
def unrescued : Use → Prop
  | .rescue => False
  | .drain | .seek => True

/-- A computation that stops at its first read that finds no value left. -/
structure StopsDry {α : Type} (x : Run α) : Prop where
  allowed (m : Machine) : m.names.Allowed unrescued → (x m).2.names.Allowed unrescued
  demands (m : Machine) : m.names.Allowed unrescued → (x m).2.demands = m.demands ∨
    ∃ d p, (x m).2.demands = m.demands ++ [d] ∧ (x m).1 = .error (.requested p)

namespace StopsDry

variable {α β : Type}

/-- A computation that reads nothing and defines nothing. -/
theorem of_same {x : Run α} (hf : ∀ m, (x m).2.names.functions = m.names.functions)
    (hd : ∀ m, (x m).2.demands = m.demands) : StopsDry x where
  allowed m hm := by rwa [Names.Allowed, hf m]
  demands m _ := .inl (hd m)

theorem bind {x : Run α} {f : α → Run β} (hx : StopsDry x) (hf : ∀ a, StopsDry (f a)) :
    StopsDry (x >>= f) where
  allowed m hm := by
    have hn := hx.allowed m hm
    rw [Run.bind_apply]
    rcases hr : x m with ⟨s | a, n⟩ <;> rw [hr] at hn
    · exact hn
    · exact (hf a).allowed n hn
  demands m hm := by
    have hn := hx.allowed m hm
    have hd := hx.demands m hm
    rw [Run.bind_apply]
    rcases hr : x m with ⟨s | a, n⟩ <;> rw [hr] at hn hd
    · obtain hd | ⟨d, p, hd, hp⟩ := hd
      · exact .inl hd
      · exact .inr ⟨d, p, hd, by simpa using hp⟩
    · obtain hd | ⟨d, p, -, hp⟩ := hd
      · have hd : n.demands = m.demands := hd
        exact hd ▸ (hf a).demands n hn
      · exact absurd hp nofun

theorem handle {body other : Run α} {cls : String} (hcls : cls ≠ "BaseException")
    (hb : StopsDry body) (ho : StopsDry other) : StopsDry (Run.handle body cls other) where
  allowed m hm := by
    have hn := hb.allowed m hm
    unfold Run.handle
    rcases hr : body m with ⟨s | a, n⟩ <;> rw [hr] at hn <;> dsimp only
    · split
      · exact ho.allowed n hn
      · exact hn
    · exact hn
  demands m hm := by
    have hn := hb.allowed m hm
    have hd := hb.demands m hm
    unfold Run.handle
    rcases hr : body m with ⟨s | a, n⟩ <;> rw [hr] at hn hd <;> dsimp only
    · obtain hd | ⟨d, p, hd, hp⟩ := hd
      · have hd : n.demands = m.demands := hd
        split
        · exact hd ▸ ho.demands n hn
        · exact .inl hd
      · -- The request of a read is not of the class.
        obtain rfl : s = .requested p := by simpa using hp
        rw [if_neg (by simpa [Stop.caughtBy] using hcls)]
        exact .inr ⟨d, p, hd, rfl⟩
    · obtain hd | ⟨d, p, -, hp⟩ := hd
      · exact .inl hd
      · exact absurd hp nofun

theorem ofRead (prompted : Bool) (read : Feed → Except Dry α × Feed) :
    StopsDry (Run.ofRead prompted read) where
  allowed m hm := by
    unfold Run.ofRead
    rcases read m.feed with ⟨(p | _) | a, g⟩ <;> exact hm
  demands m _ := by
    unfold Run.ofRead
    rcases read m.feed with ⟨(p | _) | a, g⟩
    · exact .inr ⟨_, p, rfl, rfl⟩
    · exact .inl rfl
    · exact .inl rfl

theorem ask (prompt : String) : StopsDry (Run.ask prompt) := by
  have hshow (value : String) : StopsDry (Run.showRead value) := by
    refine of_same (fun m => ?_) fun m => ?_ <;> unfold Run.showRead Run.change <;> dsimp only <;>
      split <;> rfl
  have hawait : StopsDry (Run.await prompt) :=
    (ofRead true _).bind fun v => (hshow v).bind fun _ => of_same (fun _ => rfl) fun _ => rfl
  rw [Run.ask_eq]
  split
  · exact bind (of_same (fun _ => rfl) fun _ => rfl) fun _ => hawait
  · exact hawait

theorem congruence : Congruence unrescued id fun x _ => StopsDry x where
  pure _ := of_same (fun _ => rfl) fun _ => rfl
  bind := bind
  stop _ := of_same (fun _ => rfl) fun _ => rfl
  throwNew _ _ := of_same (fun _ => rfl) fun _ => rfl
  lookUp name := by
    refine of_same (fun m => ?_) fun m => ?_ <;> unfold lookUp <;> split <;> split <;> rfl
  seedValue _ := of_same (fun _ => rfl) fun _ => rfl
  callIndex name index args hcall := by
    constructor <;> intro m hm <;> unfold callValue <;> dsimp only <;>
      cases hf : m.names.functions[index]? with
      | none => first | exact hm | exact .inl rfl
      | some f =>
          have h := hcall f args (hm f (List.mem_of_getElem? hf))
          first | exact h.allowed m hm | exact h.demands m hm
  assign name v := by
    refine of_same (fun m => ?_) fun m => ?_ <;> unfold assign Run.change <;> dsimp only <;>
      split <;> rfl
  define n name params body hw := by
    refine ⟨fun m hm f hf => ?_, fun _ _ => .inl rfl⟩
    obtain hf | hf := List.mem_append.mp hf
    · exact hm f hf
    · rw [List.mem_singleton.mp hf]
      exact hw
  emit _ := of_same (fun _ => rfl) fun _ => rfl
  emitError _ := of_same (fun _ => rfl) fun _ => rfl
  tick _ := of_same (fun _ => rfl) fun _ => rfl
  ask := ask
  readLine := ofRead false _
  readAll _ := ofRead false _
  handle _ hcls := handle hcls
  inFrame frame x _ hx := ⟨fun m hm => hx.allowed { m with frame } hm, fun m hm =>
    hx.demands { m with frame } hm⟩

end StopsDry

end Program

namespace Serving

open Program

/-- A program without a handler for requests stops for one read at most. -/
theorem demands_attempt {r : RunRequest} (h : uses .rescue r.code = false) (seed : Option Int) :
    (attempt seed r).2.demands.length ≤ 1 := by
  unfold attempt runProgram
  unfold uses at h
  rcases hcode : Program.read r.code with line | ls <;> rw [hcode] at h
  · simp [machine]
  have hw : Within unrescued fun u => ls.any (Line.uses u) := by
    intro u hu
    cases u with
    | rescue => cases h.symm.trans hu
    | drain => trivial
    | seek => trivial
  have hline : ∀ i < ls.length, id (1 + i) = 1 + i := fun _ _ => rfl
  have hdry := StopsDry.congruence.runLines ls hw hline
  obtain hd | ⟨d, p, hd, -⟩ := hdry.demands
    (machine .initial (.ofMode r.inputs r.mode r.echoInputs) seed) (Names.allowed_initial _)
  · exact hd ▸ Nat.zero_le 1
  · exact hd ▸ Nat.le_refl 1

end Serving

end Rerun
