/-!
# Binary64 numbers

The 64-bit floating-point numbers, by their bits. Every finite one is a whole
number of units of `2⁻¹⁰⁷⁴`, so values are compared and rounded exactly.

- `Binary64.units`, `Binary64.scaled`: the magnitude and the signed value in those units.
- `Binary64.ofRatio`: the number nearest to a quotient, ties to even; too large a
  quotient becomes infinite.
- `Binary64.ofDecimal`: the number nearest to `digits · 10 ^ exponent`.
- `Binary64.truncated`: the whole part of a finite number.
-/

namespace Deeplink

/-- A floating-point number of 64 bits. -/
structure Binary64 where
  bits : UInt64
  deriving DecidableEq, Inhabited

namespace Binary64

/-! ## Fields and value -/

def isNegative (x : Binary64) : Bool := Nat.pow 2 63 ≤ x.bits.toNat

/-- The biased exponent. -/
def exponent (x : Binary64) : Nat := x.bits.toNat / Nat.pow 2 52 % Nat.pow 2 11

/-- The trailing bits of the significand. -/
def fraction (x : Binary64) : Nat := x.bits.toNat % Nat.pow 2 52

def isFinite (x : Binary64) : Bool := x.exponent != 2047

def isNaN (x : Binary64) : Bool := x.exponent == 2047 && x.fraction != 0

def isInfinite (x : Binary64) : Bool := x.exponent == 2047 && x.fraction == 0

def isZero (x : Binary64) : Bool := x.exponent == 0 && x.fraction == 0

/-- The magnitude of a finite number in units of `2⁻¹⁰⁷⁴`. -/
def units (x : Binary64) : Nat :=
  if x.exponent = 0 then x.fraction
  else (Nat.pow 2 52 + x.fraction) * Nat.pow 2 (x.exponent - 1)

/-- The number of units in one. -/
def unitsPerOne : Nat := Nat.pow 2 1074

/-- The value of a finite number in units of `2⁻¹⁰⁷⁴`. -/
def scaled (x : Binary64) : Int :=
  if x.isNegative then -(x.units : Int) else x.units

/-- The whole part of a finite number, cut toward zero. -/
def truncated (x : Binary64) : Int := x.scaled.tdiv unitsPerOne

/-- A finite number without fractional part. -/
def isWhole (x : Binary64) : Bool := x.isFinite && x.scaled.tmod unitsPerOne == 0

/-! ## Special numbers -/

/-- The magnitude bits of infinity. -/
def infinityBits : Nat := 2047 * Nat.pow 2 52

/-- The number with the given sign and magnitude bits. -/
def ofMagnitude (negative : Bool) (bits : Nat) : Binary64 :=
  ⟨(if negative then Nat.pow 2 63 + bits else bits).toUInt64⟩

def infinity (negative : Bool) : Binary64 := ofMagnitude negative infinityBits

def nan : Binary64 := ofMagnitude false (infinityBits + Nat.pow 2 51)

/-! ## Rounding -/

/-- The whole number nearest to `n / d`; a half goes to the even neighbour. -/
def nearest (n d : Nat) : Nat :=
  let q := n / d
  let r := n % d
  if 2 * r < d then q else if d < 2 * r then q + 1 else q + q % 2

/-- The number nearest to `numerator / denominator`. The magnitude bits of the
numbers count up with their values, so a significand rounded up to `2⁵³` is the
first of the next exponent. -/
def ofRatio (negative : Bool) (numerator denominator : Nat) : Binary64 :=
  let n := numerator * unitsPerOne
  let shift := Nat.log2 (n / denominator) - 52
  let significand := nearest n (denominator * Nat.pow 2 shift)
  ofMagnitude negative (min (shift * Nat.pow 2 52 + significand) infinityBits)

/-- The number nearest to `digits · 10 ^ exponent`. Beyond `10³¹⁰` every number is
infinite and below `10⁻³³⁰` zero, whatever its digits. -/
def ofDecimal (negative : Bool) (digits : Nat) (exponent : Int) : Binary64 :=
  let width := (Nat.toDigits 10 digits).length
  if digits = 0 then ofMagnitude negative 0
  else if 310 < exponent + width then infinity negative
  else if exponent + width < -330 then ofMagnitude negative 0
  else if 0 ≤ exponent then ofRatio negative (digits * Nat.pow 10 exponent.toNat) 1
  else ofRatio negative digits (Nat.pow 10 (-exponent).toNat)

/-- The number nearest to a whole number. -/
def ofInt (n : Int) : Binary64 := ofRatio (n < 0) n.natAbs 1

end Binary64

end Deeplink
