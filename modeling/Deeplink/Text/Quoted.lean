import Deeplink.Text
import Deeplink.Text.Printed

/-!
# Quoted texts

How a text is shown inside a message.

- `Text.quoteMark`: apostrophes, unless the text holds an apostrophe and no quotation mark.
- `Text.quoted`: the text between its quote marks. The mark and the backslash are
  escaped, line ends and tabs have short escapes, and a code point without a printed
  form is shown by its number in two, four or eight hexadecimal digits.
- `Text.quotedList`: quoted texts between brackets.
-/

namespace Deeplink.Text

/-- The mark that needs no escape inside the text, apostrophes preferred. -/
def quoteMark (t : Text) : Char :=
  if t.contains (.char '\'') && !t.contains (.char '"') then '"' else '\''

/-- The number of a code point after a backslash, in the shortest of three widths. -/
def numbered (c : CodePoint) : Text :=
  let n := c.toNat
  if n < 0x100 then "\\x" ++ hex 2 n
  else if n < 0x10000 then "\\u" ++ hex 4 n
  else "\\U" ++ hex 8 n

/-- A code point as it is shown between the given marks. -/
def shown (mark : Char) (c : CodePoint) : Text :=
  if c = .char mark then "\\" ++ [c]
  else if c = .char '\\' then "\\\\"
  else if c = .char '\n' then "\\n"
  else if c = .char '\r' then "\\r"
  else if c = .char '\t' then "\\t"
  else if c.isPrinted then [c]
  else numbered c

/-- The text between its quote marks. -/
def quoted (t : Text) : Text :=
  let mark := quoteMark t
  .char mark :: t.flatMap (shown mark) ++ [.char mark]

/-- Quoted texts between brackets, a comma and a space after each but the last. -/
def quotedList (ts : List Text) : Text :=
  "[" ++ join ", " (ts.map quoted) ++ "]"

end Deeplink.Text
