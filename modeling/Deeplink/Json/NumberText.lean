import Deeplink.Json

/-!
# Numbers as they are written

- `Json.NumberText`: the parts of a number. One without fraction and exponent is an integer of
  any size; all others are floating-point numbers.
- `Json.numberText?`: the longest number at the front of a text. A part that is not complete,
  such as a point without digits, is left in the text.
-/

namespace Deeplink.Json

/-- The parts of a number as they are written. The exponent has a sign of its own, or none. -/
structure NumberText where
  negative : Bool
  whole : List Char
  fraction : Option (List Char)
  exponent : Option (Option Char × List Char)

namespace NumberText

def digitsValue (digits : List Char) : Nat := Nat.ofDigitChars 10 digits 0

/-- A number with a fraction or an exponent is a floating-point number. -/
def isWhole (n : NumberText) : Bool := n.fraction.isNone && n.exponent.isNone

/-- The power of ten behind the exponent letter. -/
def exponentValue (n : NumberText) : Int :=
  match n.exponent with
  | none => 0
  | some (sign, digits) =>
    if sign = some '-' then -(digitsValue digits : Int) else digitsValue digits

/-- How many code points the parts take up. -/
def width (n : NumberText) : Nat :=
  (if n.negative then 1 else 0) + n.whole.length
    + (match n.fraction with
      | none => 0
      | some digits => 1 + digits.length)
    + (match n.exponent with
      | none => 0
      | some (sign, digits) => 1 + sign.toList.length + digits.length)

/-- The integer of a number without fraction and exponent. -/
def toInt (n : NumberText) : Int :=
  if n.negative then -(digitsValue n.whole : Int) else digitsValue n.whole

/-- The nearest floating-point number. -/
def toBinary64 (n : NumberText) : Binary64 :=
  let places := n.fraction.getD []
  Binary64.ofDecimal n.negative (digitsValue (n.whole ++ places))
    (n.exponentValue - places.length)

end NumberText

/-- The digits before the point: a zero alone, or a run that begins with another digit. -/
def wholePart? (t : Text) : Option (List Char × Text) :=
  match Text.takeDigits t with
  | ([], _) => none
  | ('0' :: more, rest) => some (['0'], Text.ofChars more ++ rest)
  | found => some found

/-- A point and at least one digit, if they stand at the front. -/
def fractionPart (t : Text) : Option (List Char) × Text :=
  match t with
  | [] => (none, t)
  | c :: rest =>
    if c = .char '.' then
      match Text.takeDigits rest with
      | ([], _) => (none, t)
      | (digits, after) => (some digits, after)
    else (none, t)

/-- The sign at the front, if there is one. -/
def exponentSign (t : Text) : Option Char × Text :=
  match t with
  | [] => (none, t)
  | c :: rest =>
    if c = .char '+' then (some '+', rest)
    else if c = .char '-' then (some '-', rest)
    else (none, t)

/-- An exponent letter, a sign or none, and at least one digit, if they stand at the front. -/
def exponentPart (t : Text) : Option (Option Char × List Char) × Text :=
  match t with
  | [] => (none, t)
  | c :: rest =>
    if c = .char 'e' || c = .char 'E' then
      let (sign, rest) := exponentSign rest
      match Text.takeDigits rest with
      | ([], _) => (none, t)
      | (digits, after) => (some (sign, digits), after)
    else (none, t)

/-- The longest number at the front of a text, and the text after it. -/
def numberText? (t : Text) : Option (NumberText × Text) :=
  let (negative, unsigned) :=
    match t with
    | [] => (false, t)
    | c :: rest => if c = .char '-' then (true, rest) else (false, t)
  match wholePart? unsigned with
  | none => none
  | some (whole, afterWhole) =>
    let (fraction, afterFraction) := fractionPart afterWhole
    let (exponent, rest) := exponentPart afterFraction
    some (⟨negative, whole, fraction, exponent⟩, rest)

end Deeplink.Json
