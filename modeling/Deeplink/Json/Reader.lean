import Deeplink.Json.NumberText
import Deeplink.Json.StringText

/-!
# Reading JSON

A text is read from left to right and the first thing wrong with it is reported, with its
place.

- `Json.Rules`: whether the names of the numbers that are not finite are values, and the
  two limits.
- `Json.value`: a value at the front of a text.
- `Json.read`: a value with blanks around it and nothing else.
-/

namespace Deeplink.Json

/-! ## Rules -/

/-- What a reader accepts beyond the grammar, and where it stops. -/
structure Rules where
  constants : Bool
  integerDigits : Nat
  depth : Nat

/-- Finite numbers only. -/
def strict : Rules := ⟨false, 4300, 990⟩

/-- The names of the numbers that are not finite are values, too. -/
def lenient : Rules := ⟨true, 4300, 990⟩

/-! ## Words and numbers -/

/-- The text after a word, if the word stands at the front. -/
def after? (word : List Char) (t : Text) : Option Text :=
  match word, t with
  | [], t => some t
  | _ :: _, [] => none
  | w :: word, c :: t => if c = .char w then after? word t else none

/-- The name of a number that is not finite, if one stands at the front. -/
def constant? (t : Text) : Option (Constant × Nat × Text) :=
  match after? "NaN".toList t with
  | some rest => some (.nan, 3, rest)
  | none =>
    match after? "Infinity".toList t with
    | some rest => some (.infinity, 8, rest)
    | none =>
      match after? "-Infinity".toList t with
      | some rest => some (.negativeInfinity, 9, rest)
      | none => none

/-- `null`, `true` or `false`, if it stands at the front. -/
def word? (t : Text) : Option (Json × Nat × Text) :=
  match after? "null".toList t with
  | some rest => some (.null, 4, rest)
  | none =>
    match after? "true".toList t with
    | some rest => some (.bool true, 4, rest)
    | none =>
      match after? "false".toList t with
      | some rest => some (.bool false, 5, rest)
      | none => none

/-- A number at the position. -/
def number (rules : Rules) (c : Cursor) : Except Fault (Json × Cursor) :=
  match numberText? c.rest with
  | none => c.fault .value
  | some (n, rest) =>
    let after := c.advance n.width rest
    if n.isWhole then
      if rules.integerDigits < n.whole.length then .error (.longInteger n.whole.length)
      else .ok (.int n.toInt, after)
    else .ok (.float n.toBinary64, after)

/-- A value that is neither a string nor a container. -/
def scalar (rules : Rules) (c : Cursor) : Except Fault (Json × Cursor) :=
  match word? c.rest with
  | some (v, n, rest) => .ok (v, c.advance n rest)
  | none =>
    match constant? c.rest with
    | some (k, n, rest) =>
      if rules.constants then .ok (.float k.number, c.advance n rest)
      else .error (.constant k)
    | none => number rules c

/-! ## Values -/

mutual

/-- The value at the position. `fuel` bounds the steps and `depth` the containers that
may still be opened. -/
def value (rules : Rules) : Nat → Nat → Cursor → Except Fault (Json × Cursor)
  | 0, _, c => c.fault .value
  | fuel + 1, depth, c =>
    match c.rest with
    | [] => c.fault .value
    | first :: rest =>
      if first = .char '"' then do
        let (s, after) ← string (c.advance 1 rest)
        return (.str s, after)
      else if first = .char '[' then
        match depth with
        | 0 => .error (.nesting .array)
        | depth + 1 => do
          let (items, after) ← array rules fuel depth (c.advance 1 rest).skipBlanks
          return (.arr items, after)
      else if first = .char '\x7b' then
        match depth with
        | 0 => .error (.nesting .object)
        | depth + 1 => do
          let (pairs, after) ← object rules fuel depth (c.advance 1 rest).skipBlanks
          return (.obj (collect pairs), after)
      else scalar rules c

/-- The items of an array whose bracket and blanks have been read. -/
def array (rules : Rules) : Nat → Nat → Cursor → Except Fault (List Json × Cursor)
  | 0, _, c => c.fault .value
  | fuel + 1, depth, c =>
    match c.rest with
    | [] => items rules fuel depth c
    | first :: rest =>
      if first = .char ']' then .ok ([], c.advance 1 rest) else items rules fuel depth c

/-- At least one item, up to the closing bracket. -/
def items (rules : Rules) : Nat → Nat → Cursor → Except Fault (List Json × Cursor)
  | 0, _, c => c.fault .value
  | fuel + 1, depth, c => do
    let (v, after) ← value rules fuel depth c
    let next := after.skipBlanks
    match next.rest with
    | [] => next.fault .comma
    | mark :: rest =>
      if mark = .char ']' then return ([v], next.advance 1 rest)
      else if mark = .char ',' then do
        let (more, last) ← items rules fuel depth (next.advance 1 rest).skipBlanks
        return (v :: more, last)
      else next.fault .comma

/-- The pairs of an object whose brace and blanks have been read. -/
def object (rules : Rules) : Nat → Nat → Cursor → Except Fault (List (Text × Json) × Cursor)
  | 0, _, c => c.fault .value
  | fuel + 1, depth, c =>
    match c.rest with
    | [] => c.fault .name
    | first :: rest =>
      if first = .char '\x7d' then .ok ([], c.advance 1 rest) else pairs rules fuel depth c

/-- At least one pair, up to the closing brace. -/
def pairs (rules : Rules) : Nat → Nat → Cursor → Except Fault (List (Text × Json) × Cursor)
  | 0, _, c => c.fault .value
  | fuel + 1, depth, c =>
    match c.rest with
    | [] => c.fault .name
    | first :: rest =>
      if first = .char '"' then do
        let (key, afterKey) ← string (c.advance 1 rest)
        let colon := afterKey.skipBlanks
        match colon.rest with
        | [] => colon.fault .colon
        | mark :: rest =>
          if mark = .char ':' then do
            let (v, after) ← value rules fuel depth (colon.advance 1 rest).skipBlanks
            let next := after.skipBlanks
            match next.rest with
            | [] => next.fault .comma
            | mark :: rest =>
              if mark = .char '\x7d' then return ([(key, v)], next.advance 1 rest)
              else if mark = .char ',' then do
                let (more, last) ← pairs rules fuel depth (next.advance 1 rest).skipBlanks
                return ((key, v) :: more, last)
              else next.fault .comma
          else colon.fault .colon
      else c.fault .name

end

/-- Steps that suffice for a text: every code point is passed in at most three. -/
def stepsFor (t : Text) : Nat := 3 * t.length + 3

/-- The value of a text that may have blanks around it, with faults at offsets. -/
def readText (rules : Rules) (t : Text) : Except Fault Json := do
  match t with
  | c :: _ => if c.toNat = 0xFEFF then .error (.defect .byteOrderMark 0)
  | [] => pure ()
  let (v, after) ← value rules (stepsFor t) rules.depth (Cursor.mk 0 t).skipBlanks
  let last := after.skipBlanks
  if last.rest.isEmpty then return v else last.fault .extra

/-- The value of a text. -/
def read (rules : Rules) (t : Text) : Except ReadFault Json :=
  match readText rules t with
  | .ok v => .ok v
  | .error f => .error (f.locate t)

end Deeplink.Json
