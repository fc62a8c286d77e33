import Rerun.Binary64.Digits
import Rerun.Text.Numeral

/-!
Numbers as text. `text` is the shortest text that reads back as the number, `brief` gives six
significant digits, and `read?` reads a number with a sign, an exponent, digits of any script and
single underscores between digits.
-/

namespace Rerun.Binary64

/-- How a decimal is laid out: positionally while its leading digit stands for a power of ten from
`least` to `most`, and with an exponent of at least two digits elsewhere. -/
structure Layout where
  least : Int
  most : Int
  /-- Whether a whole number shows a zero after the point. -/
  pointed : Bool

/-- The layout of a number in full: positional from `1e-4` to below `1e16`. -/
def full : Layout := ⟨-4, 15, true⟩

/-- The layout of a number in six digits: positional from `1e-4` to below `1e6`. -/
def short : Layout := ⟨-4, 5, false⟩

/-- An exponent with its sign and at least two digits. -/
def exponentDigits (e : Int) : List Char :=
  let ds := Nat.toDigits 10 e.natAbs
  (if e < 0 then '-' else '+') :: (if ds.length < 2 then '0' :: ds else ds)

/-- Digits with a point after the first `place` of them, zeros filling up what is missing. -/
def pointAt (layout : Layout) (ds : List Char) (place : Int) : List Char :=
  if place ≤ 0 then '0' :: '.' :: List.replicate (-place).toNat '0' ++ ds
  else if (ds.length : Int) ≤ place then
    ds ++ List.replicate (place - ds.length).toNat '0' ++
      (if layout.pointed then ['.', '0'] else [])
  else ds.take place.toNat ++ '.' :: ds.drop place.toNat

def Layout.write (layout : Layout) (d : Decimal) : List Char :=
  let e := d.magnitude
  if layout.least ≤ e ∧ e ≤ layout.most then pointAt layout d.digits (e + 1)
  else
    match d.digits with
    | [] => []
    | [c] => c :: 'e' :: exponentDigits e
    | c :: cs => c :: '.' :: cs ++ 'e' :: exponentDigits e

/-- Writes a number with the digits that `decimal` chooses for its mantissa and exponent. -/
def write (layout : Layout) (decimal : Nat → Int → Decimal) : Binary64 → String
  | .nan => "nan"
  | .infinite negative => if negative then "-inf" else "inf"
  | .finite negative m e =>
    let d := if m = 0 then ⟨0, 0⟩ else decimal m e
    String.ofList ((if negative then ['-'] else []) ++ layout.write d)

/-- The shortest text that reads back as the number. -/
def text (x : Binary64) : String := write full shortest x

/-- The number in six significant digits. -/
def brief (x : Binary64) : String := write short (significant 6) x

def lowerChar (c : Char) : Char :=
  if 'A' ≤ c ∧ c ≤ 'Z' then Char.ofNat (c.toNat + 32) else c

/-- An exponent part, or nothing, up to the end of the text. -/
def readExponent? : List Char → Option Int
  | [] => some 0
  | c :: cs =>
    if c = 'e' || c = 'E' then
      let (negative, cs) := Text.signOf cs
      let (ds, rest) := Text.digitRun cs
      if ds.isEmpty || !rest.isEmpty then none
      else
        let n : Int := Text.valueOfDigits ds
        some (if negative then -n else n)
    else none

/-- Reads a number from a text without blanks around it. -/
def readChars? (cs : List Char) : Option Binary64 :=
  let (negative, cs) := Text.signOf cs
  let name := String.ofList (cs.map lowerChar)
  if name = "inf" || name = "infinity" then some (.infinite negative)
  else if name = "nan" then some .nan
  else
    let (whole, rest) := Text.digitRun cs
    let (fraction, rest) :=
      match rest with
      | '.' :: cs => Text.digitRun cs
      | cs => ([], cs)
    if whole.isEmpty && fraction.isEmpty then none
    else
      (readExponent? rest).map fun e =>
        ofDecimal negative (Text.valueOfDigits (whole ++ fraction)) (e - fraction.length)

/-- Reads a number; blanks may stand around it. -/
def read? (s : String) : Option Binary64 :=
  readChars? (Text.stripNumeral s.toList)

end Rerun.Binary64
