import Deeplink.Json.Reader
import Deeplink.Utf8

/-!
# JSON texts as octets

A JSON text may arrive in any of the Unicode encoding forms. Its first octets tell which:
a byte order mark, or the zeros that the first ASCII characters leave in wider forms.

- `Json.Encoding`: the five forms.
- `Json.detect`: the form, and the octets after the byte order mark.
- `Json.decodeOctets`: the text, if the octets are well-formed; surrogates may stand alone.
-/

namespace Deeplink.Json

inductive Encoding where
  | utf8
  | utf16 (bigEndian : Bool)
  | utf32 (bigEndian : Bool)
  deriving DecidableEq

/-- The form that the zeros among the first four octets give away. -/
def detectByZeros (b₀ b₁ b₂ b₃ : UInt8) : Encoding :=
  if b₀ = 0 then if b₁ = 0 then .utf32 true else .utf16 true
  else if b₁ = 0 then if b₂ = 0 && b₃ = 0 then .utf32 false else .utf16 false
  else .utf8

/-- The form of a text, and its octets without the byte order mark. -/
def detect : List UInt8 → Encoding × List UInt8
  | 0x00 :: 0x00 :: 0xFE :: 0xFF :: rest => (.utf32 true, rest)
  | 0xFF :: 0xFE :: 0x00 :: 0x00 :: rest => (.utf32 false, rest)
  | 0xFE :: 0xFF :: rest => (.utf16 true, rest)
  | 0xFF :: 0xFE :: rest => (.utf16 false, rest)
  | 0xEF :: 0xBB :: 0xBF :: rest => (.utf8, rest)
  | b₀ :: b₁ :: b₂ :: b₃ :: rest => (detectByZeros b₀ b₁ b₂ b₃, b₀ :: b₁ :: b₂ :: b₃ :: rest)
  | [b₀, b₁] =>
    (if b₀ = 0 then .utf16 true else if b₁ = 0 then .utf16 false else .utf8, [b₀, b₁])
  | bs => (.utf8, bs)

/-- The number of a run of octets. -/
def octetsValue (bigEndian : Bool) (bs : List UInt8) : Nat :=
  (if bigEndian then bs else bs.reverse).foldl (fun n b => n * 256 + b.toNat) 0

/-- Code units of sixteen bits; an odd octet at the end belongs to none. -/
def decodeUtf16 (bigEndian : Bool) : List UInt8 → Option (List StringUnit)
  | [] => some []
  | [_] => none
  | a :: b :: rest => do
    let units ← decodeUtf16 bigEndian rest
    return .escaped (octetsValue bigEndian [a, b]) :: units

/-- Code points of thirty-two bits, none above `10FFFF`. -/
def decodeUtf32 (bigEndian : Bool) : List UInt8 → Option Text
  | [] => some []
  | a :: b :: c :: d :: rest => do
    let n := octetsValue bigEndian [a, b, c, d]
    if 0x10FFFF < n then none
    else return .ofNat n :: (← decodeUtf32 bigEndian rest)
  | _ => none

/-- The text of the octets. -/
def decodeOctets (bs : List UInt8) : Option Text :=
  match detect bs with
  | (.utf8, octets) => (Utf8.decodeWithSurrogates octets).toOption
  | (.utf16 bigEndian, octets) => (decodeUtf16 bigEndian octets).map pairUp
  | (.utf32 bigEndian, octets) => decodeUtf32 bigEndian octets

end Deeplink.Json
