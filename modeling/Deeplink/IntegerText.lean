import Deeplink.Text.Blank

/-!
# Integers written as texts

Blanks may stand around the number, zeros in front of it, single underscores between its digits,
and a point with zeros after it. It has one sign at most, in front of the zeros or, for a minus
sign, behind them.

- `IntegerText.dropZeros?`, `IntegerText.dropPlaces?`, `IntegerText.dropUnderscores`: a number
  without what does not change it.
- `IntegerText.plain?`: the sign and the digits alone.
- `IntegerText.read`: the integer that a text writes.
-/

namespace Deeplink.IntegerText

/-- Why a text writes no integer. -/
inductive Fault where
  | surrogate
  | malformed
  | tooLong
  deriving DecidableEq

/-! ## What does not change a number -/

/-- Behind a zero, further zeros and underscores are passed over, up to a digit, a minus sign or
a point. A point keeps the code point in front of it, and so does the end; `last` is that code
point. -/
def dropMoreZeros (last : CodePoint) : Text → Option Text
  | [] => some [last]
  | c :: rest =>
    if c = .char '0' || c = .char '_' then dropMoreZeros c rest
    else if c = .char '.' then some (last :: c :: rest)
    else if c = .char '-' || c.isDigit then some (c :: rest)
    else none

/-- Without zeros at the front. A digit has to be there. -/
def dropZeros? : Text → Option Text
  | [] => none
  | c :: rest =>
    if c = .char '0' then dropMoreZeros c rest
    else if c.isDigit then some (c :: rest)
    else none

/-- Without the point and the places after it. There has to be a place after a point, and all
places have to be zeros. -/
def dropPlaces? (t : Text) : Option Text :=
  match Text.cut '.' t with
  | (whole, none) => some whole
  | (_, some []) => none
  | (whole, some places) => if places.all (· = .char '0') then some whole else none

/-- Without underscores, if each of them stands alone and inside the text. -/
def dropUnderscores (t : Text) : Text :=
  let groups := Text.pieces '_' t
  if groups.any List.isEmpty then t else groups.flatten

/-- The digits of a text, after the minus sign that it begins with, as far as it has this form. -/
def plain? (t : Text) : Option Text := do
  let (isSigned, unsigned) := Text.skip '+' (Text.trim CodePoint.isWhiteSpace t)
  let (isNegative, magnitude) := Text.skip '-' unsigned
  if isSigned && isNegative then none
  let digits := dropUnderscores (← dropPlaces? (← dropZeros? magnitude))
  return if isNegative then .char '-' :: digits else digits

/-! ## Reading -/

/-- The longest number that is read, in digits. -/
def longest : Nat := 4300

/-- The number that digits write. A zero at the front has to be the only digit. What comes after
the digits of a number that is too long does not matter. -/
def readDigits (t : Text) : Except Fault Nat :=
  match Text.takeDigits t with
  | ([], _) => .error .malformed
  | ('0' :: _ :: _, _) => .error .malformed
  | (digits, after) =>
    if longest < digits.length then .error .tooLong
    else if after.isEmpty then .ok (Nat.ofDigitChars 10 digits 0)
    else .error .malformed

/-- The integer that a text writes. -/
def read (t : Text) : Except Fault Int :=
  if !t.isScalar then .error .surrogate
  else
    match plain? t with
    | none => .error .malformed
    | some plain =>
      let (isNegative, digits) := Text.skip '-' plain
      (readDigits digits).map fun n => if isNegative then -(n : Int) else n

end Deeplink.IntegerText
