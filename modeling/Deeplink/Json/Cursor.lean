import Deeplink.Json.Fault

/-!
# Positions in a JSON text

- `Json.Cursor`: what is left of a text and how much has been read, so that a fault knows its
  offset.
- `Json.Cursor.skipBlanks`: the position after the blanks at the front.
-/

namespace Deeplink.Json

/-- What is left of a text, and how much of it has been read. -/
structure Cursor where
  offset : Nat
  rest : Text

/-- Space, tab, line feed and carriage return. -/
def isBlank (c : CodePoint) : Bool :=
  c = .char ' ' || c = .char '\t' || c = .char '\n' || c = .char '\r'

namespace Cursor

/-- The position after `n` code points, of which `rest` is left. -/
def advance (c : Cursor) (n : Nat) (rest : Text) : Cursor := ⟨c.offset + n, rest⟩

/-- The position after the blanks. -/
def skipBlanks (c : Cursor) : Cursor :=
  let blanks := c.rest.takeWhile isBlank
  ⟨c.offset + blanks.length, c.rest.drop blanks.length⟩

end Cursor

/-- A fault at the position. -/
def Cursor.fault {α : Type} (c : Cursor) (d : Defect) : Except Fault α :=
  .error (.defect d c.offset)

end Deeplink.Json
