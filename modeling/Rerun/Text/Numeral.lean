import Rerun.Text.Blank
import Rerun.Text.Class

/-!
Decimal numerals. Integers are written in the shortest way; they are read with a sign, digits of
any script, single underscores between digits and blanks around them. Neither way may take more than
`maxDigits` digits.
-/

namespace Rerun.Text

def decimal : Int → String
  | .ofNat n => String.ofList (Nat.toDigits 10 n)
  | .negSucc n => String.ofList ('-' :: Nat.toDigits 10 (n + 1))

def valueOfDigits (ds : List Nat) : Nat :=
  ds.foldl (fun n d => 10 * n + d) 0

/-- Digits after a digit, with single underscores between them, and the text after them. -/
def moreDigits : List Char → List Nat × List Char
  | [] => ([], [])
  | '_' :: c :: cs =>
    match digitValue? c with
    | some d => let r := moreDigits cs; (d :: r.1, r.2)
    | none => ([], '_' :: c :: cs)
  | c :: cs =>
    match digitValue? c with
    | some d => let r := moreDigits cs; (d :: r.1, r.2)
    | none => ([], c :: cs)

def digitRun (cs : List Char) : List Nat × List Char :=
  if cs.head? = some '_' then ([], cs) else moreDigits cs

/-- The blanks that may stand around a numeral: all but the information separators. -/
def isNumeralBlank (c : Char) : Bool :=
  isBlank c && !(28 ≤ c.toNat && c.toNat ≤ 31)

def stripNumeral (cs : List Char) : List Char :=
  dropEndWhile isNumeralBlank (cs.dropWhile isNumeralBlank)

/-- A sign, read as whether it is a minus, and the text after it. -/
def signOf : List Char → Bool × List Char
  | '-' :: cs => (true, cs)
  | '+' :: cs => (false, cs)
  | cs => (false, cs)

/-- Why a text is no integer, or an integer has no text. The digits of a text are counted, but not
those of an integer that would be written: it is too long with 0 of them. -/
inductive NumeralFault where
  | malformed
  | tooLong (digits : Nat)
  deriving DecidableEq

def maxDigits : Nat := 4300

/-- Whether an integer can be written: it has at most `maxDigits` digits. -/
def isWritable (n : Int) : Bool := n.natAbs < Nat.pow 10 maxDigits

def writeLimitMessage : String :=
  "Exceeds the limit (4300 digits) for integer string conversion; use " ++
    "sys.set_int_max_str_digits() to increase the limit"

def digitLimitMessage (digits : Nat) : String :=
  if digits = 0 then writeLimitMessage
  else "Exceeds the limit (4300 digits) for integer string conversion: value has " ++
    decimal digits ++ " digits; use sys.set_int_max_str_digits() to increase the limit"

def readInt (s : String) : Except NumeralFault Int :=
  let (negative, cs) := signOf (stripNumeral s.toList)
  let (ds, rest) := digitRun cs
  if maxDigits < ds.length then .error (.tooLong ds.length)
  else if ds.isEmpty || !rest.isEmpty then .error .malformed
  else
    let n : Int := valueOfDigits ds
    .ok (if negative then -n else n)

end Rerun.Text
