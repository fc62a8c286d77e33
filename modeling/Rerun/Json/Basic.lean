import Rerun.Assoc
import Rerun.Binary64.Basic

/-!
JSON values. Whole numbers and floating-point numbers are kept apart, and an object keeps its
fields in the order in which their names first came.
-/

namespace Rerun

inductive Json where
  | null
  | bool (value : Bool)
  | int (value : Int)
  | float (value : Binary64)
  | str (value : String)
  | arr (items : List Json)
  | obj (fields : List (String × Json))
  deriving Inhabited

namespace Json

/-- An object from fields of which the last of one name counts. -/
def ofFields (fields : List (String × Json)) : Json :=
  .obj (fields.foldl (fun fs f => Assoc.put fs f.1 f.2) [])

def field? (name : String) : Json → Option Json
  | .obj fields => fields.lookup name
  | _ => none

def ofOption {α : Type} (f : α → Json) : Option α → Json
  | none => .null
  | some a => f a

def ofString? : Option String → Json := ofOption .str

def str? : Json → Option String
  | .str s => some s
  | _ => none

def int? : Json → Option Int
  | .int n => some n
  | _ => none

def items : Json → List Json
  | .arr js => js
  | _ => []

/-- Values that count as false in a condition: null, false, zeros, and what is empty. -/
def isFalsy : Json → Bool
  | .null => true
  | .bool b => !b
  | .int n => n = 0
  | .float x => x.isZero
  | .str s => s = ""
  | .arr js => js.isEmpty
  | .obj fields => fields.isEmpty

mutual

/-- Whether a number that is no number or infinite stands anywhere inside. -/
def hasNonFinite : Json → Bool
  | .float x => !x.isFinite
  | .arr js => anyNonFinite js
  | .obj fields => anyNonFiniteField fields
  | _ => false

def anyNonFinite : List Json → Bool
  | [] => false
  | j :: js => hasNonFinite j || anyNonFinite js

def anyNonFiniteField : List (String × Json) → Bool
  | [] => false
  | (_, j) :: fields => hasNonFinite j || anyNonFiniteField fields

end

end Json

end Rerun
