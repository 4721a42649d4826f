import Deeplink.Binary64.Decimal
import Deeplink.Json
import Deeplink.Text.Quoted

/-!
# Values inside messages

- `Json.shown`: a value as messages show it: strings quoted, words with capitals.
- `Json.shownBare`: the same, but a string that is the whole value is not quoted.
- `Text.shownAscii`: a text with every code point above ASCII replaced by its number.
-/

namespace Deeplink.Json

/-- The names of numbers inside messages. -/
def shownNames : Binary64.Names := ⟨"inf", "nan"⟩

mutual

/-- A value as messages show it. -/
def shown : Json → Text
  | .null => "None"
  | .bool true => "True"
  | .bool false => "False"
  | .int n => Text.ofInt n
  | .float x => x.text shownNames
  | .str s => Text.quoted s
  | .arr items => .char '[' :: shownItems items ++ [.char ']']
  | .obj members => .char '\x7b' :: shownMembers members ++ [.char '\x7d']

/-- Items with commas between them. -/
def shownItems : List Json → Text
  | [] => []
  | x :: [] => shown x
  | x :: y :: rest => shown x ++ ", " ++ shownItems (y :: rest)

/-- Members with commas between them. -/
def shownMembers : List (Text × Json) → Text
  | [] => []
  | (k, v) :: [] => Text.quoted k ++ ": " ++ shown v
  | (k, v) :: m :: rest => Text.quoted k ++ ": " ++ shown v ++ ", " ++ shownMembers (m :: rest)

end

/-- A value as messages show it, a string without quote marks. -/
def shownBare : Json → Text
  | .str s => s
  | v => shown v

end Deeplink.Json

namespace Deeplink.Text

/-- The text with every code point above ASCII replaced by its number. -/
def shownAscii (t : Text) : Text :=
  t.flatMap fun c => if c.isAscii then [c] else numbered c

end Deeplink.Text
