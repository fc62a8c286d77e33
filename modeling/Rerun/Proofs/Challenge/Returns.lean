import Rerun.Proofs.Challenge.Course

/-!
What becomes of the values that functions give back. A value with a JSON form reaches the caller in
that form, and any other one as a text, and the program lives on; but no reply can hold a number
that is not finite, so that such a number inside a JSON form costs the caller the program. An
integer that is too long to be written leaves its value without a form and without a text, which
counts as an error of the function.
-/

namespace Rerun

open Sandbox Op

/-! ### Values -/

namespace Value

mutual

/-- Whether a number that is no number or infinite stands in a value where its JSON form has it; in
keys such numbers become text. -/
def holdsNonFinite : Value → Bool
  | .float x => !x.isFinite
  | .list vs | .tuple vs => anyHoldsNonFinite vs
  | .dict es => anyEntryHoldsNonFinite es
  | _ => false

def anyHoldsNonFinite : List Value → Bool
  | [] => false
  | v :: vs => holdsNonFinite v || anyHoldsNonFinite vs

def anyEntryHoldsNonFinite : List (Value × Value) → Bool
  | [] => false
  | (_, v) :: es => holdsNonFinite v || anyEntryHoldsNonFinite es

end

theorem anyNonFiniteField_put {fields : List (String × Json)} {name : String} {j : Json}
    (h : Json.anyNonFiniteField (Assoc.put fields name j) = true) :
    Json.anyNonFiniteField fields = true ∨ j.hasNonFinite = true := by
  induction fields with
  | nil => simpa [Json.anyNonFiniteField] using h
  | cons field fields ih =>
      obtain ⟨other, j'⟩ := field
      rw [Assoc.put] at h
      split at h
      · simp only [Json.anyNonFiniteField, Bool.or_eq_true] at h ⊢
        exact h.elim .inr fun h => .inl (.inr h)
      · simp only [Json.anyNonFiniteField, Bool.or_eq_true] at h ⊢
        exact h.elim (fun h => .inl (.inl h)) fun h => (ih h).imp_left .inr

theorem hasNonFinite_ofFields {fields : List (String × Json)}
    (h : (Json.ofFields fields).hasNonFinite = true) : Json.anyNonFiniteField fields = true := by
  suffices ∀ before, Json.anyNonFiniteField
      (fields.foldl (fun fs f => Assoc.put fs f.1 f.2) before) = true →
        Json.anyNonFiniteField before = true ∨ Json.anyNonFiniteField fields = true by
    exact (this [] h).resolve_left Bool.false_ne_true
  clear h
  induction fields with
  | nil => exact fun before h => .inl h
  | cons field fields ih =>
      intro before h
      rw [Json.anyNonFiniteField, Bool.or_eq_true]
      obtain hput | hrest := ih _ h
      · exact (anyNonFiniteField_put hput).imp_right .inl
      · exact .inr (.inr hrest)

mutual

theorem holdsNonFinite_of_toJson? : (v : Value) → {j : Json} → v.toJson? = some j →
    j.hasNonFinite = true → v.holdsNonFinite = true
  | .none, _, rfl, h | .bool _, _, rfl, h | .int _, _, rfl, h | .str _, _, rfl, h => absurd h nofun
  | .float _, _, rfl, h => h
  | .list vs, j, hj, h | .tuple vs, j, hj, h => by
    obtain ⟨js, hjs, rfl⟩ := Option.map_eq_some_iff.mp hj
    exact anyHoldsNonFinite_of_toJsons? vs hjs h
  | .dict es, j, hj, h => by
    obtain ⟨fields, hfields, rfl⟩ := Option.map_eq_some_iff.mp hj
    exact anyEntryHoldsNonFinite_of_toFields? es hfields (hasNonFinite_ofFields h)

theorem anyHoldsNonFinite_of_toJsons? : (vs : List Value) → {js : List Json} →
    toJsons? vs = some js → Json.anyNonFinite js = true → anyHoldsNonFinite vs = true
  | [], _, rfl, h => absurd h nofun
  | v :: vs, js, hjs, h => by
    rw [toJsons?] at hjs
    split at hjs
    · rename_i j js' hj hjs'
      obtain rfl := Option.some.inj hjs
      rw [Json.anyNonFinite, Bool.or_eq_true] at h
      rw [anyHoldsNonFinite, Bool.or_eq_true]
      exact h.imp (holdsNonFinite_of_toJson? v hj) (anyHoldsNonFinite_of_toJsons? vs hjs')
    · exact absurd hjs nofun

theorem anyEntryHoldsNonFinite_of_toFields? : (es : List (Value × Value)) →
    {fields : List (String × Json)} → toFields? es = some fields →
    Json.anyNonFiniteField fields = true → anyEntryHoldsNonFinite es = true
  | [], _, rfl, h => absurd h nofun
  | (k, v) :: es, fields, hfields, h => by
    rw [toFields?] at hfields
    split at hfields
    · rename_i name j fields' _ hj hfields'
      obtain rfl := Option.some.inj hfields
      rw [Json.anyNonFiniteField, Bool.or_eq_true] at h
      rw [anyEntryHoldsNonFinite, Bool.or_eq_true]
      exact h.imp (holdsNonFinite_of_toJson? v hj)
        (anyEntryHoldsNonFinite_of_toFields? es hfields')
    · exact absurd hfields nofun

end

end Value

variable {s t : Sandbox} {others : Interrupts} {i : Nat} {c : Challenge} {r : Nat} {x : Record}
  {q : Nat} {y : Child}

/-! ### Sessions that are lost -/

namespace Challenge

open Program

variable {source : Source} {p : Play} {d : Call} {v : Value} {m : Machine}

/-- The value with which a call of a function comes back, if it does, and the machine that it
leaves. -/
def Play.value? (p : Play) (d : Call) : Option (Value × Machine) :=
  match p.names.globals.lookup d.function with
  | some f@(.function ..) =>
    match callValue (callFunction maxDepth) f (d.args.map .ofJson)
        { names := p.names, feed := .closed, seed := d.seed } with
    | (.ok v, m) => some (v, m)
    | _ => none
  | _ => none

def Play.after (p : Play) (m : Machine) : Play := ⟨m.names, p.count + 1, transcript m.shown⟩

/-- No reply can be sent for a value whose JSON form has a number that is not finite. -/
theorem callAnswer_nonFinite (hwritable : v.isWritable = true)
    (hnonFinite : v.jsonable.hasNonFinite = true) (m : Machine) :
    Serving.callAnswer (.finished v) m = .refused 500 := by
  simp [Serving.callAnswer, hwritable, Serving.Answer.ofReply, Json.hasNonFinite,
    Json.anyNonFiniteField, hnonFinite]

end Challenge

end Rerun
