import Deeplink.Log.Template.Fault
import Deeplink.Log.Template.Piece

/-!
# How the arguments of a template are laid out

- `Template.Layout`: a width and the flags that say how to fill it.
- `Template.Layout.text`, `Template.Layout.number`: a text and a number filled up to the width.
- `Template.ensureRoom`, `Template.fitted`: what is too long has no memory.
-/

namespace Deeplink.Template

/-- A width, and the flags that say how to fill it. -/
structure Layout where
  flags : Flags
  width : Nat

namespace Layout

/-- How a width lays out a field. A negative one justifies to the left, but for the least, which
has no positive counterpart. -/
def ofWidth (flags : Flags) (width : Int) : Layout :=
  if width = -(SizePart.width.limit : Int) then ⟨flags, 0⟩
  else if width < 0 then ⟨{ flags with left := true }, width.natAbs⟩
  else ⟨flags, width.natAbs⟩

/-- A text filled up with blanks. -/
def text (l : Layout) (t : Text) : Text :=
  if l.flags.left then t.padRight ' ' l.width else t.padLeft ' ' l.width

/-- A number: sign and mark first, then zeros, then the digits; or blanks around all. -/
def number (l : Layout) (negative : Bool) (mark digits : Text) : Text :=
  let sign : Text :=
    if negative then "-" else if l.flags.plus then "+" else if l.flags.blank then " " else ""
  let front := sign ++ mark
  if l.flags.zero && !l.flags.left then front ++ digits.padLeft '0' (l.width - front.length)
  else l.text (front ++ digits)

end Layout

/-! ## Room -/

/-- The longest text that there is memory for. -/
def longest : Nat := 1000000000

/-- Fails if there is no memory for a text of the length. -/
def ensureRoom (length : Nat) : Except Fault Unit :=
  if longest < length then .error .noMemory else .ok ()

/-- A field, if there is memory for its width. What is wrong with its argument comes first. -/
def fitted (l : Layout) (field : Layout → Except Fault Text) : Except Fault Text := do
  if longest < l.width then
    let _ ← field { l with width := 0 }
    throw .noMemory
  else field l

end Deeplink.Template
