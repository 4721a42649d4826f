import Deeplink.Json

/-!
# What is wrong with a JSON text

- `Json.Fault`: the first thing wrong with a text: a defect at an offset, the name of a number
  that is not finite, an integer with too many digits, or nesting that is too deep.
- `Json.Place`: an offset with its line and its column.
- `Json.ReadFault`: a fault with its place, as it is reported.
-/

namespace Deeplink.Json

/-- What is wrong at a place. -/
inductive Defect where
  | byteOrderMark
  | value
  | name
  | colon
  | comma
  | openString
  | control
  | escape
  | unicodeEscape
  | extra
  deriving DecidableEq

def Defect.message : Defect → Text
  | .byteOrderMark => "Unexpected UTF-8 BOM (decode using utf-8-sig)"
  | .value => "Expecting value"
  | .name => "Expecting property name enclosed in double quotes"
  | .colon => "Expecting ':' delimiter"
  | .comma => "Expecting ',' delimiter"
  | .openString => "Unterminated string starting at"
  | .control => "Invalid control character at"
  | .escape => "Invalid \\escape"
  | .unicodeEscape => "Invalid \\uXXXX escape"
  | .extra => "Extra data"

/-- The numbers that JSON has no text for. -/
inductive Constant where
  | nan
  | infinity
  | negativeInfinity
  deriving DecidableEq

namespace Constant

def name : Constant → Text
  | .nan => "NaN"
  | .infinity => "Infinity"
  | .negativeInfinity => "-Infinity"

def number : Constant → Binary64
  | .nan => Binary64.nan
  | .infinity => Binary64.infinity false
  | .negativeInfinity => Binary64.infinity true

end Constant

inductive Container where
  | array
  | object
  deriving DecidableEq

def Container.name : Container → Text
  | .array => "array"
  | .object => "object"

/-- The first thing wrong with a text; places are offsets in code points. -/
inductive Fault where
  | defect (d : Defect) (offset : Nat)
  | constant (c : Constant)
  | longInteger (digits : Nat)
  | nesting (inside : Container)
  deriving DecidableEq

/-- A place in a text: lines and columns count from one. -/
structure Place where
  offset : Nat
  line : Nat
  column : Nat
  deriving DecidableEq

/-- The place of an offset. -/
def Place.of (t : Text) (offset : Nat) : Place :=
  let before := t.take offset
  { offset
    line := 1 + before.count (.char '\n')
    column := 1 + (before.reverse.takeWhile (· != .char '\n')).length }

/-- Why a text is not read, as it is reported. -/
inductive ReadFault where
  | defect (d : Defect) (place : Place)
  | constant (c : Constant)
  | longInteger (digits : Nat)
  | nesting (inside : Container)
  deriving DecidableEq

/-- The fault with its place in the text. -/
def Fault.locate (t : Text) : Fault → ReadFault
  | .defect d offset => .defect d (Place.of t offset)
  | .constant c => .constant c
  | .longInteger n => .longInteger n
  | .nesting c => .nesting c

def ReadFault.message : ReadFault → Text
  | .defect d place =>
    d.message ++ ": line " ++ Text.ofNat place.line ++ " column " ++ Text.ofNat place.column
      ++ " (char " ++ Text.ofNat place.offset ++ ")"
  | .constant c => c.name ++ " is not valid JSON"
  | .longInteger n =>
    "Exceeds the limit (4300 digits) for integer string conversion: value has "
      ++ Text.ofNat n ++ " digits; use sys.set_int_max_str_digits() to increase the limit"
  | .nesting inside =>
    "maximum recursion depth exceeded while decoding a JSON " ++ inside.name
      ++ " from a unicode string"

end Deeplink.Json
