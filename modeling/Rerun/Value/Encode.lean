import Rerun.Value.Text
import Rerun.Json.Writer

/-!
Values as JSON. `toJson?` gives the JSON form of a value, if it has one: tuples become arrays, and
keys become the text of their JSON form, the last of equal ones counting. A value without a JSON
form anywhere inside leaves the whole without one; `jsonable` then gives the text of the whole.
`sent?` is the form in which a value goes into a reply as it is, which sets and bytes have, too.
-/

namespace Rerun.Value

/-- The name of a field for a key. -/
def fieldName? : Value → Option String
  | .none => some "null"
  | .bool b => some (if b then "true" else "false")
  | .int n => some (Text.decimal n)
  | .float x => some (Json.writeFloat x)
  | .str s => some s
  | _ => Option.none

mutual

def toJson? : Value → Option Json
  | .none => some .null
  | .bool b => some (.bool b)
  | .int n => some (.int n)
  | .float x => some (.float x)
  | .str s => some (.str s)
  | .list vs | .tuple vs => (toJsons? vs).map .arr
  | .dict es => (toFields? es).map Json.ofFields
  | .bytes _ | .set _ | .outer _ | .function .. => Option.none

def toJsons? : List Value → Option (List Json)
  | [] => some []
  | v :: vs =>
    match toJson? v, toJsons? vs with
    | some j, some js => some (j :: js)
    | _, _ => Option.none

def toFields? : List (Value × Value) → Option (List (String × Json))
  | [] => some []
  | (k, v) :: es =>
    match fieldName? k, toJson? v, toFields? es with
    | some name, some j, some fields => some ((name, j) :: fields)
    | _, _, _ => Option.none

end

/-- The JSON form of a value, or the text of a value that has none. -/
def jsonable (v : Value) : Json :=
  v.toJson?.getD (.str v.shown)

/-- Values that count as true in a condition. -/
def isTruthy : Value → Bool
  | .none => false
  | .bool b => b
  | .int n => n ≠ 0
  | .float x => !x.isZero
  | .str s => s ≠ ""
  | .bytes bs => !bs.isEmpty
  | .list vs | .tuple vs | .set vs => !vs.isEmpty
  | .dict es => !es.isEmpty
  | .outer _ | .function .. => true

def textOfBytes? (bs : List UInt8) : Option String := String.fromUTF8? bs.toByteArray

/-- The name of a field for a key that is sent. -/
def sentName? : Value → Option String
  | .bytes bs => textOfBytes? bs
  | .float x => if x.isFinite then some (Json.writeFloat x) else Option.none
  | k => k.fieldName?

mutual

/-- The form in which a value is sent, if it can be sent. A function is sent without anything. -/
def sent? : Value → Option Json
  | .none => some .null
  | .bool b => some (.bool b)
  | .int n => some (.int n)
  | .float x => some (.float x)
  | .str s => some (.str s)
  | .bytes bs => (textOfBytes? bs).map .str
  | .list vs | .tuple vs | .set vs => (sentItems? vs).map .arr
  | .dict es => (sentFields? es).map Json.ofFields
  | .outer _ => Option.none
  | .function .. => some (.obj [])

def sentItems? : List Value → Option (List Json)
  | [] => some []
  | v :: vs =>
    match sent? v, sentItems? vs with
    | some j, some js => some (j :: js)
    | _, _ => Option.none

def sentFields? : List (Value × Value) → Option (List (String × Json))
  | [] => some []
  | (k, v) :: es =>
    match sentName? k, sent? v, sentFields? es with
    | some name, some j, some fields => some ((name, j) :: fields)
    | _, _, _ => Option.none

end

/-- What stands in a line for a message that was sent, nothing for one that is empty. -/
def messageText (j : Json) : String := if j.isFalsy then "" else (ofJson j).text

@[simp] theorem messageText_str (s : String) : messageText (.str s) = s := by
  by_cases h : s = "" <;> simp [messageText, Json.isFalsy, ofJson, text, h]

end Rerun.Value
