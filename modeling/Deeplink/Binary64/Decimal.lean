import Deeplink.Binary64
import Deeplink.Text

/-!
# Decimal texts of binary64 numbers

- `Decimal`: a run of digits with a decimal point somewhere.
- `Binary64.shortest`: the fewest digits that read back as the same number, and of
  those the nearest to it; a tie goes to the even digit.
- `Binary64.rounded`: the digits of a number up to a power of ten, exactly rounded.
- `Decimal.text`: positional for values from `10⁻⁴` up to `10¹⁶`, with an exponent of
  at least two digits elsewhere.
- `Binary64.text`: the shortest text that reads back as the number.
-/

namespace Deeplink

/-- The value `0.d₁d₂… · 10 ^ point`. -/
structure Decimal where
  digits : List Char
  point : Int
  deriving DecidableEq

namespace Decimal

/-- The decimal `n · 10 ^ exponent`, with all digits of `n`. -/
def ofScaled (n : Nat) (exponent : Int) : Decimal :=
  let digits := Nat.toDigits 10 n
  ⟨digits, digits.length + exponent⟩

/-- Without the zeros at the end, but with one digit at least. -/
def trimmed (d : Decimal) : Decimal :=
  match (d.digits.reverse.dropWhile (· == '0')).reverse with
  | [] => ⟨['0'], 1⟩
  | digits => ⟨digits, d.point⟩

end Decimal

namespace Binary64

/-! ## Exact rounding -/

/-- The `p` with `10 ^ (p - 1) ≤ n / d < 10 ^ p`, for a quotient that is neither zero nor
below `10⁻⁴⁰⁰`. -/
def decimalPoint (n d : Nat) : Int :=
  if d ≤ n then (Nat.toDigits 10 (n / d)).length
  else
    match (List.range 400).find? fun j => d ≤ n * Nat.pow 10 j with
    | some j => 1 - (j : Int)
    | none => -400

/-- The multiple of `10 ^ exponent` nearest to the magnitude of a finite number. -/
def rounded (x : Binary64) (exponent : Int) : Nat :=
  nearest (x.units * Nat.pow 10 (-exponent).toNat) (unitsPerOne * Nat.pow 10 exponent.toNat)

/-- No finite number has more significant digits. -/
def mostSignificant : Nat := 767

/-- No finite number has more decimal places. -/
def mostPlaces : Nat := 1074

/-- The magnitude of a finite number to `count` significant digits. -/
def significant (x : Binary64) (count : Nat) : Decimal :=
  if x.units = 0 then ⟨List.replicate count '0', 1⟩
  else
    let exact := min count mostSignificant
    let exponent := decimalPoint x.units unitsPerOne - exact
    let d := Decimal.ofScaled (x.rounded exponent) exponent
    ⟨d.digits.take exact ++ List.replicate (count - exact) '0', d.point⟩

/-! ## Shortest digits -/

/-- The points that round to a positive number: from `low` to `high` over
`denominator`, the ends included if `closed`. -/
structure Interval where
  value : Nat
  low : Nat
  high : Nat
  denominator : Nat
  closed : Bool

/-- The interval of a positive finite number, in quarters of the units. It reaches half
way to either neighbour; below a power of two the neighbour is only half as far away. An
even significand wins its ties. -/
def interval (x : Binary64) : Interval :=
  let spacing := Nat.pow 2 (x.exponent - 1)
  let v := 4 * x.units
  { value := v
    low := v - (if x.fraction = 0 ∧ 1 < x.exponent then spacing else 2 * spacing)
    high := v + 2 * spacing
    denominator := 4 * unitsPerOne
    closed := x.fraction % 2 == 0 }

/-- The multiple of `10 ^ exponent` nearest to the value, if one lies in the interval. -/
def Interval.onGrid (i : Interval) (exponent : Int) : Option Nat :=
  let up := Nat.pow 10 exponent.toNat * i.denominator
  let down := Nat.pow 10 (-exponent).toNat
  let inside := fun d =>
    if i.closed then i.low * down ≤ d * up && d * up ≤ i.high * down
    else i.low * down < d * up && d * up < i.high * down
  let below := i.value * down / up
  match inside below, inside (below + 1) with
  | true, true => some (nearest (i.value * down) up)
  | true, false => some below
  | false, true => some (below + 1)
  | false, false => none

/-- The fewest digits that read back as the magnitude of a finite number. -/
def shortest (x : Binary64) : Decimal :=
  if x.units = 0 then ⟨['0'], 1⟩
  else
    let i := x.interval
    let point := decimalPoint i.value i.denominator
    let found := (List.range 17).findSome? fun (k : Nat) =>
      let exponent := point - (k + 1)
      (i.onGrid exponent).map fun d => Decimal.ofScaled d exponent
    (found.getD (x.significant 17)).trimmed

end Binary64

/-! ## Layout -/

namespace Decimal

/-- The exponent after its letter: a sign and at least two digits. -/
def exponentText (letter : Char) (e : Int) : Text :=
  [.char letter, .char (if e < 0 then '-' else '+')]
    ++ Text.padLeft '0' 2 (Text.ofNat e.natAbs)

/-- The digits with a point after the first, if more follow. -/
def leading : List Char → Text
  | d :: e :: more => Text.ofChars (d :: '.' :: e :: more)
  | digits => Text.ofChars digits

/-- All digits around the point, with at least one on each side of it. -/
def positional (d : Decimal) : Text :=
  let whole := d.point.toNat
  if d.point ≤ 0 then
    "0." ++ Text.ofChars (List.replicate (-d.point).toNat '0' ++ d.digits)
  else if d.digits.length ≤ whole then
    Text.ofChars (d.digits ++ List.replicate (whole - d.digits.length) '0') ++ ".0"
  else
    Text.ofChars (d.digits.take whole ++ '.' :: d.digits.drop whole)

/-- Positional from `10⁻⁴` up to `10¹⁶`, with an exponent elsewhere. -/
def text (d : Decimal) : Text :=
  if -4 < d.point ∧ d.point ≤ 16 then d.positional
  else leading d.digits ++ exponentText 'e' (d.point - 1)

end Decimal

/-- The names of the three numbers that are not finite. -/
structure Binary64.Names where
  infinity : Text
  nan : Text

/-- The shortest text of a number. -/
def Binary64.text (names : Binary64.Names) (x : Binary64) : Text :=
  if x.isNaN then names.nan
  else
    (if x.isNegative then [.char '-'] else [])
      ++ (if x.isInfinite then names.infinity else x.shortest.text)

end Deeplink
