import Deeplink.Binary64.Decimal
import Deeplink.Json

/-!
# Writing JSON

- `Json.Style`: what stands between items, and whether code points above ASCII are escaped.
- `Json.Style.string`: a string between quotation marks; quotation marks, backslashes and
  the controls below `U+0020` are always escaped.
- `Json.write`: the text of a value. Integers have all their digits, other numbers the
  fewest that read back.
-/

namespace Deeplink.Json

/-- How a value is written. -/
structure Style where
  comma : Text
  colon : Text
  escapesWide : Bool

namespace Style

/-- A space after each comma and colon; all code points as they are. -/
def spaced : Style := ⟨", ", ": ", false⟩

/-- No spaces; all code points as they are. -/
def compact : Style := ⟨",", ":", false⟩

/-- No spaces; ASCII only. -/
def ascii : Style := ⟨",", ":", true⟩

end Style

/-- The numbers that are not finite have names of their own. -/
def numberNames : Binary64.Names := ⟨"Infinity", "NaN"⟩

/-- A code unit of sixteen bits as an escape. -/
def unitEscape (n : Nat) : Text := "\\u" ++ Text.hex 4 n

/-- A code point as one escape, or as two above `U+FFFF`. -/
def wideEscape (c : CodePoint) : Text :=
  let n := c.toNat
  if n < 0x10000 then unitEscape n
  else
    let m := n - 0x10000
    unitEscape (0xD800 + m / 0x400) ++ unitEscape (0xDC00 + m % 0x400)

/-- The letter that stands for a control after a backslash. -/
def shortEscape? (c : Char) : Option Char :=
  if c = '"' then some '"'
  else if c = '\\' then some '\\'
  else if c = '\n' then some 'n'
  else if c = '\r' then some 'r'
  else if c = '\t' then some 't'
  else if c = '\x08' then some 'b'
  else if c = '\x0c' then some 'f'
  else none

/-- A code point inside a string. -/
def Style.inString (style : Style) (c : CodePoint) : Text :=
  match c.char?.bind shortEscape? with
  | some letter => [.char '\\', .char letter]
  | none =>
    if c.toNat < 0x20 then unitEscape c.toNat
    else if style.escapesWide && !c.isAscii then wideEscape c
    else [c]

/-- A string between its quotation marks. -/
def Style.string (style : Style) (t : Text) : Text :=
  .char '"' :: t.flatMap style.inString ++ [.char '"']

mutual

/-- The text of a value. -/
def write (style : Style) : Json → Text
  | .null => "null"
  | .bool true => "true"
  | .bool false => "false"
  | .int n => Text.ofInt n
  | .float x => x.text numberNames
  | .str s => style.string s
  | .arr items => .char '[' :: writeItems style items ++ [.char ']']
  | .obj members => .char '\x7b' :: writeMembers style members ++ [.char '\x7d']

/-- The items with commas between them. -/
def writeItems (style : Style) : List Json → Text
  | [] => []
  | x :: [] => write style x
  | x :: y :: rest => write style x ++ style.comma ++ writeItems style (y :: rest)

/-- The members with commas between them. -/
def writeMembers (style : Style) : List (Text × Json) → Text
  | [] => []
  | (k, v) :: [] => style.string k ++ style.colon ++ write style v
  | (k, v) :: m :: rest =>
    style.string k ++ style.colon ++ write style v ++ style.comma
      ++ writeMembers style (m :: rest)

end

end Deeplink.Json
