import Deeplink.Json.Shown

/-!
# Attributes

What a log record can carry under a name.

- `Log.Attribute`: data, or an error that is known by its text.
- `Log.Attribute.isEmpty`: whether a value counts as none where one may be missing.
- `Log.Attribute.shown`, `Log.Attribute.shownBare`, `Log.Attribute.toJson`: a value inside a
  message, and inside a line.
-/

namespace Deeplink.Log

/-- The value of an attribute. -/
inductive Attribute where
  | data (v : Json)
  | error (text : Text)

namespace Attribute

/-- Null, false, zero, and what has no items. -/
def isEmpty : Attribute → Bool
  | .error _ => false
  | .data .null => true
  | .data (.bool b) => !b
  | .data (.int n) => n = 0
  | .data (.float x) => x.isZero
  | .data (.str t) => t.isEmpty
  | .data (.arr items) => items.isEmpty
  | .data (.obj members) => members.isEmpty

/-- What messages call the kind of a value. -/
def kindName : Attribute → Text
  | .data v => v.kindName
  | .error _ => "ValueError"

/-- A value as messages show it. -/
def shown : Attribute → Text
  | .data v => v.shown
  | .error t => "ValueError(" ++ Text.quoted t ++ ")"

/-- A value as messages show it, without quote marks and without the kind of an error. -/
def shownBare : Attribute → Text
  | .data v => v.shownBare
  | .error t => t

/-- A value inside a line; an error is its text. -/
def toJson : Attribute → Json
  | .data v => v
  | .error t => .str t

end Attribute

end Deeplink.Log
