import Deeplink.Utf8

/-!
# Percent escapes

The layer of a fragment in which `%` and two hexadecimal digits stand for an octet.

- `Percent.units`: reads the escapes; a `%` without two digits is an error.
- `Percent.decode`: the octets between two code points above ASCII are decoded as
  UTF-8 on their own; code points above ASCII pass through.
- `Percent.encode`: escapes every octet of every character that may not stay.
-/

namespace Deeplink.Percent

/-! ## Decoding -/

/-- What an escaped text is made of: octets, and code points above ASCII. -/
inductive Unit where
  | octet (b : UInt8)
  | wide (c : CodePoint)
  deriving DecidableEq

/-- A code point that is no escape. -/
def Unit.plain (c : CodePoint) : Unit :=
  if c.isAscii then .octet c.toNat.toUInt8 else .wide c

/-- The octet written by two hexadecimal digits. -/
def octet? (high low : CodePoint) : Option UInt8 := do
  let h ← Text.hexValue? high
  let l ← Text.hexValue? low
  return (16 * h + l).toUInt8

/-- The units of a text that begins at `offset`, or the offset of its first `%` that
two hexadecimal digits do not follow. -/
def units (offset : Nat) : Text → Except Nat (List Unit)
  | [] => .ok []
  | c :: rest =>
    if c = .char '%' then
      match rest with
      | high :: low :: rest =>
        match octet? high low with
        | some b => return .octet b :: (← units (offset + 3) rest)
        | none => .error offset
      | _ => .error offset
    else return .plain c :: (← units (offset + 1) rest)

/-- Decodes each run of octets on its own. `run` holds the run being read, newest first. -/
def assemble (run : List UInt8) : List Unit → Except Utf8.DecodeFault Text
  | [] => Utf8.decode run.reverse
  | .octet b :: us => assemble (b :: run) us
  | .wide c :: us => do
    let front ← Utf8.decode run.reverse
    let back ← assemble [] us
    return front ++ c :: back

/-- Why a text cannot be percent-decoded. -/
inductive DecodeFault where
  | malformed (offset : Nat)
  | octets (fault : Utf8.DecodeFault)
  deriving DecidableEq

def DecodeFault.message : DecodeFault → Text
  | .malformed offset => "Malformed percent-escape at offset " ++ Text.ofNat offset
  | .octets fault => fault.message

/-- The text that `raw` stands for. Malformed escapes are found before wrong octets. -/
def decode (raw : Text) : Except DecodeFault Text :=
  match units 0 raw with
  | .error offset => .error (.malformed offset)
  | .ok us =>
    match assemble [] us with
    | .error fault => .error (.octets fault)
    | .ok t => .ok t

/-! ## Encoding -/

/-- Letters, digits and `_ . - ~` need no escape anywhere. -/
def isUnreserved (c : Char) : Bool :=
  c.isAlphanum || c = '_' || c = '.' || c = '-' || c = '~'

def hexDigit (n : Nat) : Char := (Nat.digitChar n).toUpper

/-- The escape of an octet. -/
def escape (b : UInt8) : Text :=
  [.char '%', .char (hexDigit (b.toNat / 16)), .char (hexDigit (b.toNat % 16))]

/-- Escapes every character but the unreserved ones and those of `safe`. -/
def encode (safe : List Char) (cs : List Char) : Text :=
  cs.flatMap fun c =>
    if isUnreserved c || safe.contains c then [.char c]
    else (Utf8.encodeChar c).flatMap escape

end Deeplink.Percent
