import Rerun.Failure
import Rerun.Json.Basic

/-!
Shapes of JSON values, and fitting a value to a shape. A value fits also when it only spells what is
asked for: `"12"` is a whole number and `"yes"` a flag. A value that does not fit gives all its
faults at once, each with its place.
-/

namespace Rerun

mutual

inductive Shape where
  | any
  | text
  | whole
  | number
  | flag
  | choice (names : List String)
  | optional (shape : Shape)
  | list (shape : Shape)
  | record (fields : Fields)

/-- The fields of a record: a name, a shape, and what an absent field stands for. -/
inductive Fields where
  | done
  | field (name : String) (shape : Shape) (default : Option Json) (rest : Fields)

end

namespace Shape

/-- A text without underscores, which are allowed one at a time between other characters. -/
def dropUnderscores? (cs : List Char) : Option (List Char) :=
  let doubled := (cs.zip (cs.drop 1)).any fun p => p.1 = '_' && p.2 = '_'
  if cs.head? = some '_' || cs.getLast? = some '_' || doubled then none
  else some (cs.filter (· ≠ '_'))

def isAsciiDigit (c : Char) : Bool := '0' ≤ c && c ≤ '9'

/-- Digits that spell a whole number, after which a point and zeros may stand. -/
def wholeDigits? (cs : List Char) : Option (List Char) :=
  let whole := cs.takeWhile (· ≠ '.')
  let fraction := cs.dropWhile (· ≠ '.')
  let fits := fraction.isEmpty || (fraction.length > 1 && (fraction.drop 1).all (· = '0'))
  match whole with
  | [] => none
  | _ =>
    match dropUnderscores? whole with
    | some ds => if fits && ds.all isAsciiDigit then some ds else none
    | none => none

def decimalValue (ds : List Char) : Nat :=
  Text.valueOfDigits (ds.map fun d => d.toNat - 48)

/-- The whole number that a text spells. -/
def wholeOfText (s : String) : Except ShapeFault Int :=
  let cs := Text.stripNumeral s.toList
  let (negative, ds) := Text.signOf cs
  match wholeDigits? ds with
  | none => .error .wholeText
  | some ds =>
    if Text.maxDigits < ds.length then .error .wholeSize
    else if negative && ds.length > 1 && ds.head? = some '0' then .error .wholeText
    else
      let n : Int := decimalValue ds
      .ok (if negative then -n else n)

/-- The whole number that a floating-point number is, within 64 bits. -/
def wholeOfFloat (x : Binary64) : Except ShapeFault Int :=
  if !x.isFinite then .error .notFinite
  else if !x.isWhole then .error .wholeFromFraction
  else if -0x8000000000000000 < x.truncate && x.truncate < 0x8000000000000000 then .ok x.truncate
  else .error .wholeSize

def fitWhole : Json → Except ShapeFault Int
  | .int n => .ok n
  | .bool b => .ok (if b then 1 else 0)
  | .float x => wholeOfFloat x
  | .str s => wholeOfText s
  | _ => .error .notWhole

def numberOfText (s : String) : Except ShapeFault Binary64 :=
  let cs := Text.stripNumeral s.toList
  let read := do
    let cs ← if cs.contains '_' then dropUnderscores? cs else some cs
    if cs.all (·.toNat < 128) then Binary64.readChars? cs else none
  match read with
  | some x => .ok x
  | none => .error .numberText

def fitNumber : Json → Except ShapeFault Binary64
  | .float x => .ok x
  | .int n => (Binary64.ofInt? n).elim (.error .notNumber) .ok
  | .bool b => .ok (.ofInt (if b then 1 else 0))
  | .str s => numberOfText s
  | _ => .error .notNumber

def trueNames : List String := ["1", "on", "t", "true", "y", "yes"]

def falseNames : List String := ["0", "off", "f", "false", "n", "no"]

def fitFlag : Json → Except ShapeFault Bool
  | .bool b => .ok b
  | .int n => if n = 0 then .ok false else if n = 1 then .ok true else .error .flagText
  | .float x =>
    if x.eq (.ofInt 0) then .ok false else if x.eq (.ofInt 1) then .ok true else .error .notFlag
  | .str s =>
    let name := String.ofList (s.toList.map Binary64.lowerChar)
    if trueNames.contains name then .ok true
    else if falseNames.contains name then .ok false
    else .error .flagText
  | _ => .error .notFlag

def placed {α : Type} (place : List String) : Except ShapeFault α → Except (List Issue) α
  | .ok a => .ok a
  | .error fault => .error [⟨fault, place⟩]

/-- Both of two outcomes, or the faults of both. -/
def both {α β γ : Type} (f : α → β → γ) :
    Except (List Issue) α → Except (List Issue) β → Except (List Issue) γ
  | .ok a, .ok b => .ok (f a b)
  | .error xs, .ok _ => .error xs
  | .ok _, .error ys => .error ys
  | .error xs, .error ys => .error (xs ++ ys)

def fitItems (fit : List String → Json → Except (List Issue) Json) (place : List String) :
    Nat → List Json → Except (List Issue) (List Json)
  | _, [] => .ok []
  | n, j :: js =>
    both List.cons (fit (place ++ [Text.decimal n]) j) (fitItems fit place (n + 1) js)

mutual

/-- Fits a value to a shape. `anyFields` says that a record may be given by anything that has its
fields, which only changes the name of the fault of a value that has none. -/
def fitAt (anyFields : Bool) : Shape → List String → Json → Except (List Issue) Json
  | .any, _, j => .ok j
  | .text, place, j =>
    match j with
    | .str s => .ok (.str s)
    | _ => .error [⟨.notText, place⟩]
  | .whole, place, j => (placed place (fitWhole j)).map .int
  | .number, place, j => (placed place (fitNumber j)).map .float
  | .flag, place, j => (placed place (fitFlag j)).map .bool
  | .choice names, place, j =>
    match j with
    | .str s => if names.contains s then .ok (.str s) else .error [⟨.notChoice, place⟩]
    | _ => .error [⟨.notChoice, place⟩]
  | .optional shape, place, j =>
    match j with
    | .null => .ok .null
    | j => fitAt anyFields shape place j
  | .list shape, place, j =>
    match j with
    | .arr js => (fitItems (fitAt anyFields shape) place 0 js).map .arr
    | _ => .error [⟨.notList, place⟩]
  | .record fields, place, j =>
    match j with
    | .obj given => (fitFields anyFields fields place given).map .obj
    | _ => .error [⟨if anyFields then .notFields else .notRecord, place⟩]

/-- Fits the fields of a record; fields that it does not name are left out. -/
def fitFields (anyFields : Bool) : Fields → List String → List (String × Json) →
    Except (List Issue) (List (String × Json))
  | .done, _, _ => .ok []
  | .field name shape default rest, place, given =>
    let value :=
      match given.lookup name with
      | some j => fitAt anyFields shape (place ++ [name]) j
      | none =>
        match default with
        | some j => .ok j
        | none => .error [⟨.missing, place ++ [name]⟩]
    both (fun j js => (name, j) :: js) value (fitFields anyFields rest place given)

end

def fit (shape : Shape) (j : Json) : Except (List Issue) Json := fitAt false shape [] j

def fitBody (shape : Shape) (j : Json) : Except (List Issue) Json := fitAt true shape ["body"] j

/-- A required text field, and one that may be left out. -/
def textField (name : String) (rest : Fields) : Fields := .field name .text none rest

def textFieldOr (name default : String) (rest : Fields) : Fields :=
  .field name .text (some (.str default)) rest

/-- A text field that may be null, which it is when it is left out. -/
def optionalText (name : String) (rest : Fields) : Fields :=
  .field name (.optional .text) (some .null) rest

end Shape

namespace Json

def textOf (name : String) (j : Json) : String := ((j.field? name).bind str?).getD ""

def text?Of (name : String) (j : Json) : Option String := (j.field? name).bind str?

def int?Of (name : String) (j : Json) : Option Int := (j.field? name).bind int?

def flagOf (name : String) (j : Json) : Bool :=
  match j.field? name with
  | some (.bool b) => b
  | _ => false

def itemsOf (name : String) (j : Json) : List Json := ((j.field? name).map items).getD []

end Json

end Rerun
