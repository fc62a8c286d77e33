import Rerun.Binary64.Basic

/-!
Decimal digits of a number: the fewest that read back as the number (`shortest`), or a fixed count
of them (`significant`). A decimal is a whole number times a power of ten.
-/

namespace Rerun

structure Decimal where
  coefficient : Nat
  exponent : Int
  deriving DecidableEq

namespace Decimal

/-- Trailing zeros move from the coefficient to the exponent. -/
def trim (fuel : Nat) (d : Decimal) : Decimal :=
  match fuel with
  | 0 => d
  | fuel + 1 =>
    if d.coefficient ≠ 0 ∧ d.coefficient % 10 = 0 then
      trim fuel ⟨d.coefficient / 10, d.exponent + 1⟩
    else d

def digits (d : Decimal) : List Char := Nat.toDigits 10 d.coefficient

def magnitude (d : Decimal) : Int := d.exponent + d.digits.length - 1

end Decimal

namespace Binary64

/-- The least `j ≥ start` with `den ≤ num · 10 ^ j`. -/
def leadingZeros (num den : Nat) : (fuel start : Nat) → Nat
  | 0, start => start
  | fuel + 1, start =>
    if den ≤ num * tenTo start then start else leadingZeros num den fuel (start + 1)

/-- The exponent `k` with `10 ^ (k - 1) ≤ num / den < 10 ^ k`. -/
def decimalExponent (num den : Nat) : Int :=
  if den ≤ num then (Nat.toDigits 10 (num / den)).length
  else 1 - (leadingZeros num den 400 1 : Int)

/-- The numbers that round to `mantissa · 2 ^ exponent`, in quarters of `2 ^ exponent`: the two
ends and whether they belong to it. Below a power of two the next number is half as far away. -/
def rounding (mantissa : Nat) (exponent : Int) : Nat × Nat × Bool :=
  let low :=
    if mantissa = twoTo 52 ∧ minExponent < exponent then 4 * mantissa - 1 else 4 * mantissa - 2
  (low, 4 * mantissa + 2, mantissa % 2 == 0)

/-- The decimal of the grid `10 ^ grid` that is nearest to the number and still reads back as it,
if there is one; a tie goes to the even one. -/
def onGrid? (mantissa : Nat) (exponent grid : Int) : Option Decimal :=
  let m := mantissa
  let (low, high, closed) := rounding m exponent
  let e := exponent - 2
  let scale := twoTo e.toNat
  let den := twoTo (-e).toNat * tenTo grid.toNat
  let ten := tenTo (-grid).toNat
  let value := 4 * m * scale * ten
  let floor := value / den
  let inside (c : Nat) : Bool :=
    let x := c * den
    let l := low * scale * ten
    let h := high * scale * ten
    if closed then l ≤ x && x ≤ h else l < x && x < h
  let below := value - floor * den
  let above := (floor + 1) * den - value
  match inside floor && floor ≠ 0, inside (floor + 1) with
  | true, true =>
    if below < above then some ⟨floor, grid⟩
    else if above < below then some ⟨floor + 1, grid⟩
    else some ⟨floor + floor % 2, grid⟩
  | true, false => some ⟨floor, grid⟩
  | false, true => some ⟨floor + 1, grid⟩
  | false, false => none

/-- The first grid, from `count` digits on, that has a decimal which reads back. -/
def firstGrid (mantissa : Nat) (exponent top : Int) : (fuel count : Nat) → Decimal
  | 0, _ => ⟨0, 0⟩
  | fuel + 1, count =>
    match onGrid? mantissa exponent (top - count) with
    | some d => d
    | none => firstGrid mantissa exponent top fuel (count + 1)

/-- The decimal with the fewest digits that reads back as `mantissa · 2 ^ exponent`, and of those
the nearest. -/
def shortest (mantissa : Nat) (exponent : Int) : Decimal :=
  let num := mantissa * twoTo exponent.toNat
  let den := twoTo (-exponent).toNat
  (firstGrid mantissa exponent (decimalExponent num den) 20 1).trim 400

/-- The number rounded to `count` significant digits, a tie to the even digit. -/
def significant (count mantissa : Nat) (exponent : Int) : Decimal :=
  let num := mantissa * twoTo exponent.toNat
  let den := twoTo (-exponent).toNat
  let grid := decimalExponent num den - count
  Decimal.trim 400 ⟨roundDiv (num * tenTo (-grid).toNat) (den * tenTo grid.toNat), grid⟩

end Binary64

end Rerun
