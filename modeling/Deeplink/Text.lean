/-!
# Texts

Everything the pipeline reads and writes is a text: a list of code points. JSON
escapes can name a surrogate without its partner, so a text is wider than a
string of scalar values.

- `CodePoint`: a scalar value, or a surrogate that stands alone.
- `Text`: a list of code points; string literals coerce to it.
- `Text.precedes`: the order of texts, by the numbers of their code points.
- `Text.ofNat`, `Text.ofInt`, `Text.hex`: numbers written out.
- `Text.trim`, `Text.cut`, `Text.sorted`: the cuts and the order the pipeline uses.
-/

namespace Deeplink

/-! ## Code points -/

/-- A code point: a scalar value, or one of the 2048 surrogates standing alone. -/
inductive CodePoint where
  | char (c : Char)
  | surrogate (offset : Fin 0x800)
  deriving DecidableEq, Inhabited

namespace CodePoint

/-- The number of a code point; the surrogates fill the gap `D800`–`DFFF`. -/
def toNat : CodePoint → Nat
  | .char c => c.toNat
  | .surrogate i => 0xD800 + i.val

/-- The code point of a number. Numbers above `10FFFF` have none and become NUL. -/
def ofNat (n : Nat) : CodePoint :=
  if h : 0xD800 ≤ n ∧ n < 0xE000 then .surrogate ⟨n - 0xD800, by omega⟩
  else .char (Char.ofNat n)

/-- The scalar value, if there is one. -/
def char? : CodePoint → Option Char
  | .char c => some c
  | .surrogate _ => none

/-- A code point below 128. -/
def isAscii (c : CodePoint) : Bool := c.toNat < 0x80

/-- A decimal digit of ASCII. -/
def isDigit (c : CodePoint) : Bool := (c.char?.map Char.isDigit).getD false

def isSurrogate : CodePoint → Bool
  | .char _ => false
  | .surrogate _ => true

@[simp] theorem toNat_char (c : Char) : (CodePoint.char c).toNat = c.toNat := rfl

/-- A code point is given by its number. -/
@[simp] theorem ofNat_toNat (c : CodePoint) : ofNat c.toNat = c := by
  cases c with
  | char c =>
    have h : ¬ (0xD800 ≤ c.toNat ∧ c.toNat < 0xE000) := by
      have := c.valid
      simp only [UInt32.isValidChar, Nat.isValidChar] at this
      simp only [Char.toNat]
      omega
    simp [ofNat, toNat, h]
  | surrogate i =>
    have := i.isLt
    rw [ofNat, dif_pos (by simp only [toNat]; omega)]
    exact congrArg surrogate (Fin.ext (Nat.add_sub_cancel_left 0xD800 i.val))

end CodePoint

/-! ## Texts -/

/-- A text is a list of code points. -/
abbrev Text := List CodePoint

/-- The comparison of texts is equality. -/
instance : LawfulBEq Text := inferInstance

namespace Text

/-- The text of a string. -/
def ofString (s : String) : Text := s.toList.map .char

instance : Coe String Text := ⟨ofString⟩

/-- The text of a list of scalar values. -/
def ofChars (cs : List Char) : Text := cs.map .char

/-- The scalar values of a text; surrogates have none and are passed over. -/
def toChars (t : Text) : List Char := t.filterMap CodePoint.char?

/-- A text without surrogates can be written in any encoding form. -/
def isScalar (t : Text) : Bool := t.all fun c => !c.isSurrogate

@[simp] theorem toChars_ofChars (cs : List Char) : toChars (ofChars cs) = cs := by
  induction cs with
  | nil => rfl
  | cons c cs ih => simp_all [toChars, ofChars, CodePoint.char?]

/-! ## Order -/

/-- Whether `s` comes before or with `t` in the order by code point numbers. -/
def precedes : Text → Text → Bool
  | [], _ => true
  | _ :: _, [] => false
  | a :: s, b :: t =>
    if a.toNat < b.toNat then true
    else if b.toNat < a.toNat then false
    else precedes s t

/-- The texts in ascending order. -/
def sorted (ts : List Text) : List Text := ts.mergeSort precedes

/-! ## Cuts -/

/-- The part before the first `mark` and the part after it, if there is a mark. -/
def cut (mark : Char) (t : Text) : Text × Option Text :=
  match t with
  | [] => ([], none)
  | c :: rest =>
    if c = .char mark then ([], some rest)
    else
      let (before, after) := cut mark rest
      (c :: before, after)

/-- Whether a mark is at the front, and the text without it. -/
def skip (mark : Char) : Text → Bool × Text
  | [] => (false, [])
  | c :: rest => if c = .char mark then (true, rest) else (false, c :: rest)

/-- The pieces between the marks: one more than there are marks. -/
def pieces (mark : Char) (t : Text) : List Text := t.splitOn (.char mark)

/-- The texts one after the other with `between` in the gaps. -/
def join (between : Text) (ts : List Text) : Text := between.intercalate ts

/-- The text without the blanks at its two ends. -/
def trim (blank : CodePoint → Bool) (t : Text) : Text :=
  ((t.dropWhile blank).reverse.dropWhile blank).reverse

/-- ASCII capitals in lower case; every other code point as it is. -/
def lowerAscii (t : Text) : Text :=
  t.map fun
    | .char c => .char c.toLower
    | c => c

/-! ## Numbers -/

/-- Decimal digits without leading zeros. -/
def ofNat (n : Nat) : Text := ofChars (Nat.toDigits 10 n)

/-- Decimal digits, after a minus sign for a negative number. -/
def ofInt : Int → Text
  | .ofNat n => ofNat n
  | .negSucc n => .char '-' :: ofNat (n + 1)

/-- Lower-case hexadecimal digits, filled up with zeros to the width. -/
def hex (width n : Nat) : Text :=
  let digits := Nat.toDigits 16 n
  ofChars (List.replicate (width - digits.length) '0' ++ digits)

/-- The value of a hexadecimal digit of either case. -/
def hexValue? : CodePoint → Option Nat
  | .char c =>
    if '0' ≤ c ∧ c ≤ '9' then some (c.toNat - '0'.toNat)
    else if 'a' ≤ c ∧ c ≤ 'f' then some (c.toNat - 'a'.toNat + 10)
    else if 'A' ≤ c ∧ c ≤ 'F' then some (c.toNat - 'A'.toNat + 10)
    else none
  | .surrogate _ => none

/-- The decimal digits at the front, and what follows them. -/
def takeDigits : Text → List Char × Text
  | .char c :: rest =>
    if c.isDigit then
      let (digits, after) := takeDigits rest
      (c :: digits, after)
    else ([], .char c :: rest)
  | t => ([], t)

/-- Left-justified to the width with `fill`. -/
def padRight (fill : Char) (width : Nat) (t : Text) : Text :=
  t ++ List.replicate (width - t.length) (.char fill)

/-- Right-justified to the width with `fill`. -/
def padLeft (fill : Char) (width : Nat) (t : Text) : Text :=
  List.replicate (width - t.length) (.char fill) ++ t

end Text

end Deeplink
