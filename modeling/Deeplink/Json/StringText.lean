import Deeplink.Json.Cursor

/-!
# Strings as they are written

A string is read in two steps: first its units, each a code point or a code unit written as an
escape, and then its code points.

- `Json.stringBody`: the units up to the closing quotation mark.
- `Json.pairUp`: the code points of the units: escapes of a leading and a trailing surrogate in
  a row make one code point, and all others stand alone.
-/

namespace Deeplink.Json

/-- What a string is made of: code points, and code units written as escapes. -/
inductive StringUnit where
  | raw (c : CodePoint)
  | escaped (unit : Nat)
  deriving DecidableEq

/-- What the letter after a backslash stands for. -/
def shortEscaped? (c : CodePoint) : Option Char :=
  if c = .char '"' then some '"'
  else if c = .char '\\' then some '\\'
  else if c = .char '/' then some '/'
  else if c = .char 'b' then some '\x08'
  else if c = .char 'f' then some '\x0c'
  else if c = .char 'n' then some '\n'
  else if c = .char 'r' then some '\r'
  else if c = .char 't' then some '\t'
  else none

/-- The code unit of four hexadecimal digits. -/
def codeUnit? (a b c d : CodePoint) : Option Nat := do
  let a ← Text.hexValue? a
  let b ← Text.hexValue? b
  let c ← Text.hexValue? c
  let d ← Text.hexValue? d
  return ((a * 16 + b) * 16 + c) * 16 + d

/-- The units up to the closing quotation mark, and the position after it. `opening` is
the offset of the opening mark. A code unit needs a further character after its digits. -/
def stringBody (opening offset : Nat) : Text → Except Fault (List StringUnit × Cursor)
  | [] => .error (.defect .openString opening)
  | c :: rest =>
    if c = .char '"' then .ok ([], ⟨offset + 1, rest⟩)
    else if c = .char '\\' then
      match rest with
      | [] => .error (.defect .openString opening)
      | k :: rest =>
        if k = .char 'u' then
          match rest with
          | a :: b :: c :: d :: rest =>
            match codeUnit? a b c d with
            | none => .error (.defect .unicodeEscape (offset + 1))
            | some unit =>
              if rest.isEmpty then .error (.defect .unicodeEscape (offset + 1))
              else do
                let (units, after) ← stringBody opening (offset + 6) rest
                return (.escaped unit :: units, after)
          | _ => .error (.defect .unicodeEscape (offset + 1))
        else
          match shortEscaped? k with
          | none => .error (.defect .escape offset)
          | some ch => do
            let (units, after) ← stringBody opening (offset + 2) rest
            return (.raw (.char ch) :: units, after)
    else if c.toNat < 0x20 then .error (.defect .control offset)
    else do
      let (units, after) ← stringBody opening (offset + 1) rest
      return (.raw c :: units, after)

/-- A leading surrogate. -/
def isLeading (unit : Nat) : Bool := 0xD800 ≤ unit && unit < 0xDC00

/-- A trailing surrogate. -/
def isTrailing (unit : Nat) : Bool := 0xDC00 ≤ unit && unit < 0xE000

/-- The code point of two surrogates. -/
def joined (leading trailing : Nat) : Nat :=
  0x10000 + (leading - 0xD800) * 0x400 + (trailing - 0xDC00)

/-- The code points of the units of a string. -/
def pairUp : List StringUnit → Text
  | [] => []
  | .raw c :: units => c :: pairUp units
  | .escaped n :: .escaped m :: units =>
    if isLeading n && isTrailing m then .ofNat (joined n m) :: pairUp units
    else .ofNat n :: pairUp (.escaped m :: units)
  | .escaped n :: units => .ofNat n :: pairUp units

/-- A string whose opening mark has been read. -/
def string (c : Cursor) : Except Fault (Text × Cursor) := do
  let (units, after) ← stringBody (c.offset - 1) c.offset c.rest
  return (pairUp units, after)

end Deeplink.Json
