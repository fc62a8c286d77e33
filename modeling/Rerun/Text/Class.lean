import Rerun.Text.Tables

/-!
Classes of characters that go beyond ASCII: decimal digits with their values, the characters of a
word, and the characters that are shown as they are in a quoted text.
-/

namespace Rerun.Text

/-- The value of a decimal digit of any script. -/
def digitValue? (c : Char) : Option Nat :=
  let n := c.toNat
  if n < 128 then
    if 48 ≤ n && n ≤ 57 then some (n - 48) else none
  else
    (Tables.decimalZeros.find? fun z => z ≤ n && n ≤ z + 9).map (n - ·)

def isDigit (c : Char) : Bool := (digitValue? c).isSome

/-- Letters, digits and other numeric characters of any script, and the underscore. -/
def isWordChar (c : Char) : Bool :=
  let n := c.toNat
  if n < 128 then c.isAlphanum || c == '_' else Tables.within Tables.alphanumeric n

def isPrintable (c : Char) : Bool :=
  let n := c.toNat
  if n < 128 then 32 ≤ n && n < 127 else !Tables.within Tables.unprintable n

end Rerun.Text
