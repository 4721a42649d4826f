import Deeplink.Binary64.Decimal
import Deeplink.Log.Attribute
import Deeplink.Log.Template.Layout

/-!
# Numbers in templates

- `Template.fixedText`, `Template.scientificText`, `Template.generalText`: the three forms of a
  floating-point magnitude.
- `Template.floatText`, `Template.integerText`: an argument as a number.
-/

namespace Deeplink.Template

open Log (Attribute)

/-- Digits in a base, at least as many as the precision says. -/
def digitsIn (base precision n : Nat) : Text :=
  (Text.ofChars (Nat.toDigits base n)).padLeft '0' precision

def capitals (t : Text) : Text :=
  t.map fun
    | .char c => .char c.toUpper
    | c => c

/-- The digits of a magnitude to a number of decimal places. `point` ends those without places. -/
def fixedText (x : Binary64) (places : Nat) (point : Text) : Text :=
  let exact := min places Binary64.mostPlaces
  let digits := (Text.ofNat (x.rounded (-(exact : Int)))).padLeft '0' (exact + 1)
  let whole := digits.take (digits.length - exact)
  let fraction := digits.drop (digits.length - exact)
  if places = 0 then whole ++ point else whole ++ .char '.' :: Text.padRight '0' places fraction

/-- The digits of a magnitude with an exponent, to a number of decimal places. `point` ends those
without places. -/
def scientificText (x : Binary64) (places : Nat) (point : Text) : Text :=
  let d := x.significant (places + 1)
  Decimal.leading d.digits ++ (if places = 0 then point else [])
    ++ Decimal.exponentText 'e' (d.point - 1)

/-- The places behind the first digit that are shown. With that digit their number has to fit into
31 bits, or there are none. -/
def shownPlaces (places : Nat) : Nat := if places + 1 < Nat.pow 2 31 then places else 0

/-- Without the zeros at the end of the places, and without the point if none are left. -/
def dropZeros (digits : List Char) : List Char :=
  (digits.reverse.dropWhile (· == '0')).reverse

/-- The digits of a magnitude to a number of significant digits: with an exponent if it is
below -4 or not below the number of digits. -/
def generalText (x : Binary64) (count : Nat) (keepZeros : Bool) : Text :=
  let count := max count 1
  let d := x.significant (if keepZeros then count else min count Binary64.mostSignificant)
  let digits := if keepZeros then d.digits else
    match dropZeros d.digits with
    | [] => ['0']
    | digits => digits
  let exponent := d.point - 1
  if -4 ≤ exponent ∧ exponent < count then
    if d.point ≤ 0 then
      "0." ++ Text.ofChars (List.replicate (-d.point).toNat '0' ++ digits)
    else
      let whole := d.point.toNat
      let front := digits.take whole ++ List.replicate (whole - digits.length) '0'
      match digits.drop whole with
      | [] => Text.ofChars front ++ (if keepZeros then "." else "")
      | places => Text.ofChars (front ++ '.' :: places)
  else
    (match digits with
      | d :: [] => Text.ofChars (if keepZeros then [d, '.'] else [d])
      | _ => Decimal.leading digits) ++ Decimal.exponentText 'e' exponent

/-- The floating-point number of an argument. -/
def floatOf (v : Attribute) : Except Fault Binary64 :=
  let ofInt (n : Int) : Except Fault Binary64 :=
    let x := Binary64.ofInt n
    if x.isFinite then .ok x else .error .tooLarge
  match v with
  | .data (.float x) => .ok x
  | .data (.int n) => ofInt n
  | .data (.bool b) => ofInt (if b then 1 else 0)
  | _ => .error (.needsFloat v.kindName)

/-- The text of a finite magnitude. -/
def magnitudeText (flags : Flags) (letter : Char) (places : Nat) (x : Binary64) :
    Except Fault Text := do
  let point : Text := if flags.alternate then "." else ""
  if letter = 'f' then
    ensureRoom places
    return fixedText x places point
  else if letter = 'e' then
    ensureRoom (shownPlaces places)
    return scientificText x (shownPlaces places) point
  else
    if flags.alternate then ensureRoom places
    return generalText x places flags.alternate

/-- A floating-point conversion; a capital letter asks for capitals. -/
def floatText (l : Layout) (letter : Char) (precision : Option Nat) (v : Attribute) :
    Except Fault Text := do
  let x ← floatOf v
  let digits : Text ←
    if x.isNaN then pure "nan"
    else if x.isInfinite then pure "inf"
    else magnitudeText l.flags letter.toLower (precision.getD 6) x
  let digits := if letter.isUpper then capitals digits else digits
  return l.number (x.isNegative && !x.isNaN) [] digits

/-- The integer of an argument for the given letter. Only the decimal letters cut off the
fraction of a floating-point number. -/
def integerOf (letter : Char) (v : Attribute) : Except Fault Int :=
  let decimal := letter = 'd' || letter = 'i' || letter = 'u'
  match v with
  | .data (.int n) => .ok n
  | .data (.bool b) => .ok (if b then 1 else 0)
  | .data (.float x) =>
    if !decimal then .error (.needsInteger letter v.kindName)
    else if x.isNaN then .error .undefined
    else if x.isInfinite then .error .infinite
    else .ok x.truncated
  | _ =>
    .error (if decimal then .needsReal letter v.kindName else .needsInteger letter v.kindName)

/-- The most digits that an integer can be asked for: with a sign and a mark of two more their
number still fits into 31 bits. -/
def mostDigits : Nat := Nat.pow 2 31 - 4

/-- An integer conversion. The mark of the base is written if the flag asks for it. -/
def integerText (l : Layout) (letter : Char) (precision : Option Nat) (v : Attribute) :
    Except Fault Text := do
  let n ← integerOf letter v
  let precision := precision.getD 0
  if mostDigits < precision then throw .precisionTooLarge
  ensureRoom precision
  let base := if letter = 'o' then 8 else if letter = 'x' || letter = 'X' then 16 else 10
  let mark : Text :=
    if !l.flags.alternate || base = 10 then [] else [.char '0', .char letter]
  let digits := digitsIn base precision n.natAbs
  return l.number (n < 0) mark (if letter = 'X' then capitals digits else digits)

end Deeplink.Template
