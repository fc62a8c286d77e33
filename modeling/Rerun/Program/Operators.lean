import Rerun.Program.Machine

/-!
The operators of the language on values: addition, floor division, and reading of integers.
-/

namespace Rerun.Program

def unsupported (operator : String) (a b : Value) : String :=
  "unsupported operand type(s) for " ++ operator ++ ": '" ++ a.typeName ++ "' and '" ++
    b.typeName ++ "'"

def concatOnly (kind : String) (b : Value) : String :=
  "can only concatenate " ++ kind ++ " (not \"" ++ b.typeName ++ "\") to " ++ kind

def asFloat (v : Value) : Run Binary64 :=
  match v with
  | .float x => pure x
  | v =>
    match v.whole?.bind Binary64.ofInt? with
    | some x => pure x
    | none => Run.fail "OverflowError" "int too large to convert to float"

def isNumber : Value → Bool
  | .float _ => true
  | v => v.whole?.isSome

/-- Sum of numbers, or concatenation of two values of one kind. -/
def addValues (a b : Value) : Run Value :=
  match a, b with
  | .str s, .str t => pure (.str (s ++ t))
  | .bytes s, .bytes t => pure (.bytes (s ++ t))
  | .list s, .list t => pure (.list (s ++ t))
  | .tuple s, .tuple t => pure (.tuple (s ++ t))
  | .str _, b => Run.fail "TypeError" (concatOnly "str" b)
  | .list _, b | .outer _, b => Run.fail "TypeError" (concatOnly "list" b)
  | .tuple _, b => Run.fail "TypeError" (concatOnly "tuple" b)
  | .bytes _, b => Run.fail "TypeError" ("can't concat " ++ b.typeName ++ " to bytes")
  | a, b =>
    match a.whole?, b.whole? with
    | some m, some n => pure (.int (m + n))
    | _, _ =>
      if isNumber a && isNumber b then do
        let x ← asFloat a
        let y ← asFloat b
        pure (.float (x.add y))
      else Run.fail "TypeError" (unsupported "+" a b)

/-- The quotient of floating-point numbers rounded down to a whole number. -/
def floorQuotient (x y : Binary64) : Binary64 :=
  if x.isFinite && y.isFinite then
    let q := Int.fdiv x.units y.units
    if q = 0 then .zero (x.isNegative != y.isNegative) else .ofInt q
  else if x.isFinite && y != .nan then
    if x.isZero || x.isNegative = y.isNegative then .zero (x.isNegative != y.isNegative)
    else .ofInt (-1)
  else .nan

/-- Division rounded down. -/
def floorDivValues (a b : Value) : Run Value :=
  match a.whole?, b.whole? with
  | some m, some n =>
    if n = 0 then Run.fail "ZeroDivisionError" "integer division or modulo by zero"
    else pure (.int (Int.fdiv m n))
  | _, _ =>
    if isNumber a && isNumber b then do
      let x ← asFloat a
      let y ← asFloat b
      if y.isZero then Run.fail "ZeroDivisionError" "float floor division by zero"
      else pure (.float (floorQuotient x y))
    else Run.fail "TypeError" (unsupported "//" a b)

def intOfText (text : String) (shown : String) : Run Value :=
  match Text.readInt text with
  | .ok n => pure (.int n)
  | .error .malformed =>
    Run.fail "ValueError" ("invalid literal for int() with base 10: " ++ shown)
  | .error (.tooLong digits) => Run.fail "ValueError" (Text.digitLimitMessage digits)

/-- The integer that a value stands for. -/
def toInt (v : Value) : Run Value :=
  match v with
  | .str s => intOfText s v.shown
  | .bytes bs => intOfText (String.ofList (bs.map fun b => Char.ofNat b.toNat)) v.shown
  | .float .nan => Run.fail "ValueError" "cannot convert float NaN to integer"
  | .float (.infinite _) => Run.fail "OverflowError" "cannot convert float infinity to integer"
  | .float x => pure (.int x.truncate)
  | v =>
    match v.whole? with
    | some n => pure (.int n)
    | none =>
      Run.fail "TypeError" ("int() argument must be a string, a bytes-like object or a real " ++
        "number, not '" ++ v.typeName ++ "'")

mutual

/-- The type of the first part of a value that keeps it from being a key. -/
def unhashable? : Value → Option String
  | .tuple vs => firstUnhashable? vs
  | .list _ | .outer _ => some "list"
  | .set _ => some "set"
  | .dict _ => some "dict"
  | _ => none

def firstUnhashable? : List Value → Option String
  | [] => none
  | v :: vs => (unhashable? v).or (firstUnhashable? vs)

end

/-- Refuses values that cannot be keys. -/
def requireKeys (vs : List Value) : Run Unit :=
  match firstUnhashable? vs with
  | none => pure ()
  | some type => Run.fail "TypeError" ("unhashable type: '" ++ type ++ "'")

def requireWritable (vs : List Value) : Run Unit :=
  if Value.allWritable vs then pure () else Run.fail "ValueError" Text.writeLimitMessage

end Rerun.Program
