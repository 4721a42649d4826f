import Deeplink.Text

/-!
# UTF-8

Octets to texts and back, with the exact extent of what is wrong.

- `Utf8.lead?`: what the first octet of a longer sequence promises, and the range
  its second octet must lie in. The ranges rule out overlong forms, surrogates and
  numbers above `10FFFF`.
- `Utf8.decode`: strict decoding; a fault covers the longest prefix of the bad
  sequence that some well-formed sequence begins with.
- `Utf8.encode`: the octets of a text without surrogates; a fault covers the first
  run of surrogates.
-/

namespace Deeplink.Utf8

/-! ## Decoding -/

inductive Reason where
  | invalidStart
  | invalidContinuation
  | unexpectedEnd
  deriving DecidableEq

def Reason.message : Reason → Text
  | .invalidStart => "invalid start byte"
  | .invalidContinuation => "invalid continuation byte"
  | .unexpectedEnd => "unexpected end of data"

/-- Octets `first` to `last`, counted from zero, belong to no character. -/
structure DecodeFault where
  first : Nat
  last : Nat
  octet : UInt8
  reason : Reason
  deriving DecidableEq

/-- One bad octet is shown by its value, several by their range. -/
def DecodeFault.message (f : DecodeFault) : Text :=
  (if f.first = f.last then
    "'utf-8' codec can't decode byte 0x" ++ Text.hex 2 f.octet.toNat ++ " in position "
      ++ Text.ofNat f.first
  else
    "'utf-8' codec can't decode bytes in position " ++ Text.ofNat f.first ++ "-"
      ++ Text.ofNat f.last)
  ++ ": " ++ f.reason.message

/-- A sequence that has begun: the bits read so far, the octets it still owes, the
range of the next one, and where it began. -/
structure Partial where
  bits : Nat
  owed : Nat
  low : UInt8
  high : UInt8
  start : Nat
  octet : UInt8

/-- What the first octet of a longer sequence promises. With `surrogates` their
three-octet forms count as well-formed. -/
def lead? (surrogates : Bool) (start : Nat) (b : UInt8) : Option Partial :=
  if b < 0xC2 then none
  else if b < 0xE0 then some ⟨b.toNat - 0xC0, 1, 0x80, 0xBF, start, b⟩
  else if b = 0xE0 then some ⟨0, 2, 0xA0, 0xBF, start, b⟩
  else if b = 0xED && !surrogates then some ⟨0xD, 2, 0x80, 0x9F, start, b⟩
  else if b < 0xF0 then some ⟨b.toNat - 0xE0, 2, 0x80, 0xBF, start, b⟩
  else if b = 0xF0 then some ⟨0, 3, 0x90, 0xBF, start, b⟩
  else if b < 0xF4 then some ⟨b.toNat - 0xF0, 3, 0x80, 0xBF, start, b⟩
  else if b = 0xF4 then some ⟨4, 3, 0x80, 0x8F, start, b⟩
  else none

/-- The bits of a sequence after one more octet. -/
def Partial.push (p : Partial) (b : UInt8) : Nat := p.bits * 64 + (b.toNat - 0x80)

/-- Decodes the octets from position `at` on, in the middle of `open?` if there is one. -/
def decodeFrom (surrogates : Bool) :
    Option Partial → Nat → List UInt8 → Except DecodeFault Text
  | none, _, [] => .ok []
  | some p, pos, [] => .error ⟨p.start, pos - 1, p.octet, .unexpectedEnd⟩
  | none, pos, b :: bs =>
    if b < 0x80 then do
      let rest ← decodeFrom surrogates none (pos + 1) bs
      return .ofNat b.toNat :: rest
    else
      match lead? surrogates pos b with
      | some p => decodeFrom surrogates (some p) (pos + 1) bs
      | none => .error ⟨pos, pos, b, .invalidStart⟩
  | some p, pos, b :: bs =>
    if p.low ≤ b ∧ b ≤ p.high then
      if p.owed = 1 then do
        let rest ← decodeFrom surrogates none (pos + 1) bs
        return .ofNat (p.push b) :: rest
      else
        decodeFrom surrogates
          (some { p with bits := p.push b, owed := p.owed - 1, low := 0x80, high := 0xBF })
          (pos + 1) bs
    else .error ⟨p.start, pos - 1, p.octet, .invalidContinuation⟩

/-- The text that the octets encode. -/
def decode (octets : List UInt8) : Except DecodeFault Text :=
  decodeFrom false none 0 octets

/-- Decoding that also takes the three-octet forms of surrogates. -/
def decodeWithSurrogates (octets : List UInt8) : Except DecodeFault Text :=
  decodeFrom true none 0 octets

/-! ## Encoding -/

/-- The one to four octets of a scalar value. -/
def encodeChar (c : Char) : List UInt8 := String.utf8EncodeChar c

/-- Code points `first` to `last`, counted from zero, are surrogates. -/
structure EncodeFault where
  first : Nat
  last : Nat
  codePoint : CodePoint
  deriving DecidableEq

def EncodeFault.message (f : EncodeFault) : Text :=
  (if f.first = f.last then
    "'utf-8' codec can't encode character '\\u" ++ Text.hex 4 f.codePoint.toNat
      ++ "' in position " ++ Text.ofNat f.first
  else
    "'utf-8' codec can't encode characters in position " ++ Text.ofNat f.first ++ "-"
      ++ Text.ofNat f.last)
  ++ ": surrogates not allowed"

/-- The first run of surrogates in a text. -/
def firstSurrogates? (t : Text) : Option EncodeFault :=
  let first := (t.takeWhile fun c => !c.isSurrogate).length
  match (t.drop first).takeWhile CodePoint.isSurrogate with
  | [] => none
  | c :: more => some ⟨first, first + more.length, c⟩

/-- The octets of a text without surrogates. -/
def encode (t : Text) : Except EncodeFault (List UInt8) :=
  match firstSurrogates? t with
  | none => .ok (t.toChars.flatMap encodeChar)
  | some f => .error f

/-- One code point for each octet of a text; a text with surrogates has none. -/
def octetText (t : Text) : Text :=
  ((encode t).toOption.getD []).map fun b => .ofNat b.toNat

end Deeplink.Utf8
