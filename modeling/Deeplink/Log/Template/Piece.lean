import Deeplink.Text

/-!
# Templates as they are written

A template is a text with conversions: a percent sign, and a letter that says how an argument
is written. In between may stand a key in parentheses, flags, a width and a precision.

- `Template.Conversion`: the parts of a conversion.
- `Template.pieces`: the conversions of a template and the code points around them.
-/

namespace Deeplink.Template

/-- A width or a precision: a number, or a star that stands for the next argument. -/
inductive Size where
  | fixed (n : Nat)
  | next
  deriving DecidableEq

/-- The flags of a conversion. -/
structure Flags where
  left : Bool := false
  plus : Bool := false
  blank : Bool := false
  alternate : Bool := false
  zero : Bool := false
  deriving DecidableEq

/-- A key in parentheses; one whose parenthesis is never closed has no text. -/
inductive Key where
  | none
  | closed (key : Text)
  | unclosed
  deriving DecidableEq

/-- The parts of a conversion. The letter comes with its index; a template that ends too
early leaves it out. -/
structure Conversion where
  key : Key
  flags : Flags
  width : Option Size
  precision : Option Size
  letter : Option (CodePoint × Nat)
  deriving DecidableEq

/-- The key at the front, up to the parenthesis that closes it, and the text after it.
`depth` counts the parentheses that are open inside. -/
def keyBody (depth : Nat) : Text → Option (Text × Text)
  | [] => none
  | c :: rest =>
    if c = .char ')' then
      match depth with
      | 0 => some ([], rest)
      | depth + 1 => (keyBody depth rest).map fun (key, after) => (c :: key, after)
    else
      let depth := if c = .char '(' then depth + 1 else depth
      (keyBody depth rest).map fun (key, after) => (c :: key, after)

/-- The key at the front, if a parenthesis opens one. -/
def takeKey (t : Text) : Key × Text :=
  match t with
  | [] => (.none, [])
  | c :: rest =>
    if c = .char '(' then
      match keyBody 0 rest with
      | some (key, after) => (.closed key, after)
      | none => (.unclosed, [])
    else (.none, t)

/-- The flags at the front. -/
def takeFlags (flags : Flags) : Text → Flags × Text
  | [] => (flags, [])
  | c :: rest =>
    if c = .char '-' then takeFlags { flags with left := true } rest
    else if c = .char '+' then takeFlags { flags with plus := true } rest
    else if c = .char ' ' then takeFlags { flags with blank := true } rest
    else if c = .char '#' then takeFlags { flags with alternate := true } rest
    else if c = .char '0' then takeFlags { flags with zero := true } rest
    else (flags, c :: rest)

/-- The size at the front, if there is one. -/
def takeSize (t : Text) : Option Size × Text :=
  match t with
  | [] => (none, [])
  | c :: rest =>
    if c = .char '*' then (some .next, rest)
    else
      match Text.takeDigits t with
      | ([], _) => (none, t)
      | (digits, after) => (some (.fixed (Nat.ofDigitChars 10 digits 0)), after)

/-- The precision at the front: a point, and a size or nothing for zero. -/
def takePrecision (t : Text) : Option Size × Text :=
  match t with
  | [] => (none, [])
  | c :: rest =>
    if c = .char '.' then
      let (size, after) := takeSize rest
      (some (size.getD (.fixed 0)), after)
    else (none, t)

/-- Without the letter for the length of an argument, which changes nothing. -/
def dropLength (t : Text) : Text :=
  match t with
  | [] => []
  | c :: rest => if c = .char 'h' || c = .char 'l' || c = .char 'L' then rest else t

/-- The conversion behind a percent sign, of a template of the given length, and the text
after it. -/
def takeConversion (length : Nat) (t : Text) : Conversion × Text :=
  let (key, t) := takeKey t
  let (flags, t) := takeFlags {} t
  let (width, t) := takeSize t
  let (precision, t) := takePrecision t
  match dropLength t with
  | [] => (⟨key, flags, width, precision, none⟩, [])
  | c :: rest => (⟨key, flags, width, precision, some (c, length - rest.length - 1)⟩, rest)

/-- A text, or a conversion. -/
inductive Piece where
  | literal (c : CodePoint)
  | conversion (c : Conversion)
  deriving DecidableEq

/-- The piece at the front of a text that is not empty, and the text after it. A second percent
sign right after the first stands for itself. -/
def takePiece (length : Nat) (c : CodePoint) (rest : Text) : Piece × Text :=
  if c = .char '%' then
    match rest with
    | .char '%' :: after => (.literal (.char '%'), after)
    | _ =>
      let (conversion, after) := takeConversion length rest
      (.conversion conversion, after)
  else (.literal c, rest)

/-- The pieces of a text. `fuel` bounds their number. -/
def piecesFrom (length : Nat) : Nat → Text → List Piece
  | 0, _ => []
  | _ + 1, [] => []
  | fuel + 1, c :: rest =>
    let (piece, after) := takePiece length c rest
    piece :: piecesFrom length fuel after

/-- The pieces of a template. -/
def pieces (t : Text) : List Piece := piecesFrom t.length t.length t

end Deeplink.Template
