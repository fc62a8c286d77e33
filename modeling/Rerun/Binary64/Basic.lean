/-!
Binary floating-point numbers of 64 bits, with exact definitions of their operations: every finite
number is a whole multiple of the smallest positive one (`units`), an operation computes on such
multiples without loss, and `ofRatio` rounds the result to the nearest number, a tie to the even
one.
-/

namespace Rerun

/-- A binary floating-point number of 64 bits: `± mantissa · 2 ^ exponent`, an infinity, or not a
number. -/
inductive Binary64 where
  | finite (negative : Bool) (mantissa : Nat) (exponent : Int)
  | infinite (negative : Bool)
  | nan
  deriving DecidableEq, Inhabited

namespace Binary64

def minExponent : Int := -1074

def maxExponent : Int := 971

def zero (negative : Bool) : Binary64 := .finite negative 0 minExponent

def twoTo (n : Nat) : Nat := Nat.pow 2 n

def tenTo (n : Nat) : Nat := Nat.pow 10 n

/-- A quotient rounded to the nearest whole number; a half goes to the even neighbour. -/
def roundDiv (num den : Nat) : Nat :=
  let q := num / den
  let r := num % den
  if 2 * r < den then q else if den < 2 * r then q + 1 else q + q % 2

/-- A mantissa that rounding has carried to 54 bits is halved, and a number that is too large is
infinite. -/
def carry (negative : Bool) (mantissa : Nat) (exponent : Int) : Binary64 :=
  let (m, e) := if mantissa = twoTo 53 then (twoTo 52, exponent + 1) else (mantissa, exponent)
  if maxExponent < e then .infinite negative else .finite negative m e

/-- The exponent that gives `num / den` a mantissa of 53 bits, or the least exponent. -/
def exponentFor (num den : Nat) : Int :=
  let a := num.log2
  let b := den.log2
  let e : Int := a - b - (if num * twoTo b < den * twoTo a then 53 else 52)
  max e minExponent

/-- The number nearest to `± num / den`. -/
def ofRatio (negative : Bool) (num den : Nat) : Binary64 :=
  if num = 0 then zero negative
  else
    let e := exponentFor num den
    carry negative (roundDiv (num * twoTo (-e).toNat) (den * twoTo e.toNat)) e

/-- A finite number as a multiple of the smallest positive one. -/
def units : Binary64 → Int
  | .finite negative m e =>
    let u : Int := m * twoTo (e - minExponent).toNat
    if negative then -u else u
  | _ => 0

def one : Nat := twoTo 1074

def isNegative : Binary64 → Bool
  | .finite negative _ _ => negative
  | .infinite negative => negative
  | .nan => false

def isFinite : Binary64 → Bool
  | .finite .. => true
  | _ => false

def isZero : Binary64 → Bool
  | .finite _ 0 _ => true
  | _ => false

/-- The number nearest to a whole number, which may be infinite. -/
def ofInt (n : Int) : Binary64 := ofRatio (n < 0) n.natAbs 1

/-- The number nearest to a whole number, if there is a finite one. -/
def ofInt? (n : Int) : Option Binary64 :=
  let x := ofInt n
  if x.isFinite then some x else none

/-- The number nearest to `± n · 10 ^ e`. -/
def ofDecimal (negative : Bool) (n : Nat) (e : Int) : Binary64 :=
  if n = 0 then zero negative
  else if e + (Nat.toDigits 10 n).length > 400 then .infinite negative
  else if e + (Nat.toDigits 10 n).length < -400 then zero negative
  else ofRatio negative (n * tenTo e.toNat) (tenTo (-e).toNat)

def neg : Binary64 → Binary64
  | .finite negative m e => .finite (!negative) m e
  | .infinite negative => .infinite (!negative)
  | .nan => .nan

def abs : Binary64 → Binary64
  | .finite _ m e => .finite false m e
  | .infinite _ => .infinite false
  | .nan => .nan

def add (x y : Binary64) : Binary64 :=
  match x, y with
  | .nan, _ | _, .nan => .nan
  | .infinite a, .infinite b => if a = b then .infinite a else .nan
  | .infinite a, _ => .infinite a
  | _, .infinite b => .infinite b
  | x, y =>
    let u := x.units + y.units
    if u = 0 then zero (x.isNegative && y.isNegative) else ofRatio (u < 0) u.natAbs one

def sub (x y : Binary64) : Binary64 := x.add y.neg

def mul (x y : Binary64) : Binary64 :=
  let negative := x.isNegative != y.isNegative
  match x, y with
  | .nan, _ | _, .nan => .nan
  | .infinite _, y => if y.isZero then .nan else .infinite negative
  | x, .infinite _ => if x.isZero then .nan else .infinite negative
  | x, y => ofRatio negative (x.units.natAbs * y.units.natAbs) (one * one)

/-- Division; a divisor of zero gives an infinity, or no number when the dividend is zero too. -/
def div (x y : Binary64) : Binary64 :=
  let negative := x.isNegative != y.isNegative
  match x, y with
  | .nan, _ | _, .nan => .nan
  | .infinite _, .infinite _ => .nan
  | .infinite _, _ => .infinite negative
  | _, .infinite _ => zero negative
  | x, y =>
    if y.isZero then (if x.isZero then .nan else .infinite negative)
    else ofRatio negative x.units.natAbs y.units.natAbs

/-- Order of the numbers; nothing is in order with what is not a number. -/
def lt (x y : Binary64) : Bool :=
  match x, y with
  | .nan, _ | _, .nan => false
  | .infinite a, .infinite b => a && !b
  | .infinite a, _ => a
  | _, .infinite b => !b
  | x, y => x.units < y.units

/-- Equality of values: zeros are equal, and what is not a number equals nothing. -/
def eq (x y : Binary64) : Bool :=
  match x, y with
  | .nan, _ | _, .nan => false
  | .infinite a, .infinite b => a = b
  | .infinite _, _ | _, .infinite _ => false
  | x, y => x.units = y.units

def le (x y : Binary64) : Bool := x.lt y || x.eq y

def truncate (x : Binary64) : Int := Int.tdiv x.units one

def isWhole (x : Binary64) : Bool := x.isFinite && Int.tmod x.units one = 0

/-- The nearest whole number; a half goes to the even neighbour. -/
def roundToInt (x : Binary64) : Int :=
  let n : Int := roundDiv x.units.natAbs one
  if x.isNegative then -n else n

/-- Two numbers that differ by at most one part in a million of one of them, or by at most
`1e-8`. -/
def isClose (x y : Binary64) : Bool :=
  if x.eq y then true
  else if !x.isFinite || !y.isFinite then false
  else
    let difference := (y.sub x).abs
    let relative := ofDecimal false 1 (-6)
    difference.le (relative.mul y).abs || difference.le (relative.mul x).abs ||
      difference.le (ofDecimal false 1 (-8))

/-- A count of milliseconds in seconds. -/
def ofMillis (ms : Int) : Binary64 := (ofInt ms).div (ofInt 1000)

/-- Seconds as a whole number of milliseconds, the nearest. -/
def toMillis (seconds : Binary64) : Int := (seconds.mul (ofInt 1000)).roundToInt

end Binary64

end Rerun
