import Deeplink.Log.Template.Number

/-!
# Arguments as they are written

- `Template.characterOf`: an argument as a character.
- `Template.converted`: an argument written as the letter of a conversion says.
-/

namespace Deeplink.Template

open Log (Attribute)

/-- A character conversion: a string of one character, or the number of one. -/
def characterOf (v : Attribute) : Except Fault Text :=
  let ofInt (n : Int) : Except Fault Text :=
    if 0 ≤ n ∧ n < 0x110000 then .ok [.ofNat n.toNat] else .error .noCharacter
  match v with
  | .data (.str [c]) => .ok [c]
  | .data (.int n) => ofInt n
  | .data (.bool b) => ofInt (if b then 1 else 0)
  | _ => .error .needsCharacter

/-! ## Letters -/

/-- A text conversion, cut to the precision. -/
def textConversion (l : Layout) (precision : Option Nat) (t : Text) : Text :=
  l.text (match precision with
    | some n => t.take n
    | none => t)

/-- The argument written as the letter says. -/
def converted (l : Layout) (precision : Option Nat) (letter : CodePoint) (index : Nat)
    (v : Attribute) : Except Fault Text :=
  match letter with
  | .char c =>
    if c = 's' then .ok (textConversion l precision v.shownBare)
    else if c = 'r' then .ok (textConversion l precision v.shown)
    else if c = 'a' then .ok (textConversion l precision v.shown.shownAscii)
    else if c ∈ ['d', 'i', 'u', 'o', 'x', 'X'] then integerText l c precision v
    else if c ∈ ['e', 'E', 'f', 'F', 'g', 'G'] then floatText l c precision v
    else if c = 'c' then (characterOf v).map l.text
    else .error (.unsupported letter index)
  | .surrogate _ => .error (.unsupported letter index)

end Deeplink.Template
