import Rerun.Json.Basic

/-!
Values of programs. Dictionaries keep their entries in the order in which their keys first came;
numbers and truth values that are equal are the same key. A container that holds itself is written
down to the place where it comes again, which `outer` marks; no program of the language makes one.
-/

namespace Rerun

inductive Value where
  | none
  | bool (value : Bool)
  | int (value : Int)
  | float (value : Binary64)
  | str (value : String)
  | bytes (value : List UInt8)
  | list (items : List Value)
  | tuple (items : List Value)
  | set (items : List Value)
  | dict (entries : List (Value × Value))
  /-- One of the containers around: the innermost at level 0. -/
  | outer (level : Nat)
  /-- A function, by its name and by its place among the functions that the program has defined. -/
  | function (name : String) (index : Nat)
  deriving Inhabited

namespace Value

/-- A list that holds itself and nothing else. -/
def knot : Value := .list [.outer 0]

/-- The whole number that a truth value or a whole number stands for. -/
def whole? : Value → Option Int
  | .bool b => some (if b then 1 else 0)
  | .int n => some n
  | _ => Option.none

/-- Whether a whole number and a floating-point number are the same number. -/
def sameNumber (n : Int) (x : Binary64) : Bool :=
  x.isWhole && x.truncate = n

/-- Equality of values that are neither containers nor truth values among themselves. -/
def sameAtom (a b : Value) : Bool :=
  match a, b with
  | .none, .none => true
  | .str s, .str t => s = t
  | .bytes s, .bytes t => s = t
  | .float x, .float y => x.eq y
  | .function _ i, .function _ j => i = j
  | a, .float y => a.whole?.any (sameNumber · y)
  | .float x, b => b.whole?.any (sameNumber · x)
  | a, b =>
    match a.whole?, b.whole? with
    | some m, some n => m = n
    | _, _ => false

mutual

/-- Equality of values as keys: containers by their elements, in order. -/
def same : Value → Value → Bool
  | .tuple as, .tuple bs => sameItems as bs
  | .list as, .list bs => sameItems as bs
  | a, b => sameAtom a b

def sameItems : List Value → List Value → Bool
  | [], [] => true
  | a :: as, b :: bs => same a b && sameItems as bs
  | _, _ => false

end

/-- Sets an entry: an equal key keeps its place and its spelling and gets the new value. -/
def setEntry (entries : List (Value × Value)) (key value : Value) : List (Value × Value) :=
  match entries with
  | [] => [(key, value)]
  | (k, v) :: rest =>
    if same k key then (k, value) :: rest else (k, v) :: setEntry rest key value

def ofEntries (entries : List (Value × Value)) : Value :=
  .dict (entries.foldl (fun es e => setEntry es e.1 e.2) [])

def ofItems (items : List Value) : Value :=
  .set (items.foldl (fun done v => if done.any (same · v) then done else done ++ [v]) [])

mutual

def ofJson : Json → Value
  | .null => .none
  | .bool b => .bool b
  | .int n => .int n
  | .float x => .float x
  | .str s => .str s
  | .arr js => .list (ofJsons js)
  | .obj fields => .dict (ofFields fields)

def ofJsons : List Json → List Value
  | [] => []
  | j :: js => ofJson j :: ofJsons js

def ofFields : List (String × Json) → List (Value × Value)
  | [] => []
  | (k, j) :: fields => (.str k, ofJson j) :: ofFields fields

end

/-- The name of a value's type, as error messages give it. -/
def typeName : Value → String
  | .none => "NoneType"
  | .bool _ => "bool"
  | .int _ => "int"
  | .float _ => "float"
  | .str _ => "str"
  | .bytes _ => "bytes"
  | .list _ | .outer _ => "list"
  | .tuple _ => "tuple"
  | .set _ => "set"
  | .dict _ => "dict"
  | .function .. => "function"

end Value

end Rerun
