import Deeplink.Percent
import Deeplink.Proofs.Text.Utf8

/-!
# Percent escapes there and back

- `Percent.units_encode`: the units of an escaped text are the octets of what it stands for.
- `Percent.decode_encode`: what has been escaped is read back.
- `Percent.mem_encode`: an escaped text has no mark but `%`.
-/

namespace Deeplink.Percent

/-! ## Escapes -/

theorem hexValue?_hexDigit {n : Nat} (h : n < 16) :
    Text.hexValue? (.char (hexDigit n)) = some n := by
  have hall : ∀ i : Fin 16, Text.hexValue? (.char (hexDigit i)) = some i.val := by decide
  exact hall ⟨n, h⟩

/-- Two digits stand for the octet they are made of. -/
theorem octet?_hexDigits (b : UInt8) :
    octet? (.char (hexDigit (b.toNat / 16))) (.char (hexDigit (b.toNat % 16))) = some b := by
  have hb : b.toNat < 256 := b.toNat_lt
  have hvalue : 16 * (b.toNat / 16) + b.toNat % 16 = b.toNat := by omega
  rw [octet?, hexValue?_hexDigit (by omega), hexValue?_hexDigit (by omega)]
  show some (UInt8.ofNat (16 * (b.toNat / 16) + b.toNat % 16)) = some b
  rw [hvalue, UInt8.ofNat_toNat]

section Units

variable {rest : Text} {us : List Unit}

theorem units_escape (b : UInt8) (hrest : ∀ offset, units offset rest = .ok us)
    (offset : Nat) : units offset (escape b ++ rest) = .ok (.octet b :: us) := by
  show units offset (.char '%' :: .char (hexDigit (b.toNat / 16))
    :: .char (hexDigit (b.toNat % 16)) :: rest) = _
  rw [units, if_pos rfl, octet?_hexDigits, hrest]
  rfl

theorem units_escapes (bs : List UInt8) (hrest : ∀ offset, units offset rest = .ok us)
    (offset : Nat) :
    units offset (bs.flatMap escape ++ rest) = .ok (bs.map .octet ++ us) := by
  induction bs generalizing offset with
  | nil => exact hrest offset
  | cons b bs ih =>
    rw [List.flatMap_cons, List.append_assoc]
    exact units_escape b ih offset

/-- What follows a code point that is no percent sign does not matter to it. -/
theorem units_cons_of_ne {c : CodePoint} (hc : c ≠ .char '%')
    (hrest : ∀ offset, units offset rest = .ok us) (offset : Nat) :
    units offset (c :: rest) = .ok (.plain c :: us) := by
  unfold units
  rw [if_neg hc, hrest]
  rfl

/-- A character of ASCII that is no percent sign is an octet. -/
theorem units_plain {c : Char} (hc : c.toNat < 0x80) (hc' : c ≠ '%')
    (hrest : ∀ offset, units offset rest = .ok us) (offset : Nat) :
    units offset (.char c :: rest) = .ok ((Utf8.encodeChar c).map .octet ++ us) := by
  have hne : CodePoint.char c ≠ .char '%' := fun h => hc' (CodePoint.char.inj h)
  have hplain : Unit.plain (.char c) = .octet (UInt8.ofNat c.toNat) :=
    if_pos (decide_eq_true hc)
  have hencode : Utf8.encodeChar c = [UInt8.ofNat c.toNat] := by
    have hle : c.val.toNat ≤ 127 := Nat.le_of_lt_succ hc
    unfold Utf8.encodeChar String.utf8EncodeChar
    rw [if_pos hle]
    rfl
  rw [units_cons_of_ne hne hrest, hplain, hencode]
  rfl

end Units

/-- What stays as it is belongs to ASCII and is no percent sign. -/
theorem isUnreserved_ascii {c : Char} (h : isUnreserved c = true) : c.toNat < 0x80 ∧ c ≠ '%' := by
  constructor
  · delta isUnreserved Char.isAlphanum Char.isAlpha Char.isUpper Char.isLower Char.isDigit at h
    simp only [Bool.or_eq_true, Bool.and_eq_true, decide_eq_true_eq, UInt32.le_iff_toNat_le,
      ge_iff_le] at h
    simp only [Char.reduceVal, UInt32.reduceToNat] at h
    rcases h with ((((h | h) | rfl) | rfl) | rfl) | rfl
    · show c.val.toNat < 128
      omega
    · show c.val.toNat < 128
      omega
    all_goals decide
  · rintro rfl
    revert h
    decide

theorem isUnreserved_hexDigit {n : Nat} (h : n < 16) : isUnreserved (hexDigit n) = true := by
  have hall : ∀ i : Fin 16, isUnreserved (hexDigit i) = true := by decide
  exact hall ⟨n, h⟩

/-- **The units of an escaped text are octets**: those of the characters it stands for. -/
theorem units_encode (cs : List Char) (offset : Nat) :
    units offset (encode [] cs) = .ok ((cs.flatMap Utf8.encodeChar).map .octet) := by
  induction cs generalizing offset with
  | nil => rfl
  | cons c cs ih =>
    rw [encode, List.flatMap_cons, List.flatMap_cons, List.map_append]
    -- a character that stays is decoded as the one octet that it would be escaped as
    by_cases hc : isUnreserved c = true
    · obtain ⟨hascii, hmark⟩ := isUnreserved_ascii hc
      rw [if_pos (by simp [hc])]
      exact units_plain hascii hmark ih offset
    · rw [if_neg (by simp [hc])]
      exact units_escapes (Utf8.encodeChar c) ih offset

/-! ## Decoding -/

theorem assemble_octets (run bs : List UInt8) :
    assemble run (bs.map .octet) = Utf8.decode (run.reverse ++ bs) := by
  induction bs generalizing run with
  | nil =>
    rw [List.append_nil]
    rfl
  | cons b bs ih =>
    show assemble (b :: run) (bs.map .octet) = _
    rw [ih, List.reverse_cons, List.append_assoc]
    rfl

/-- **What has been escaped is read back.** -/
theorem decode_encode (cs : List Char) : decode (encode [] cs) = .ok (Text.ofChars cs) := by
  rw [decode, units_encode]
  dsimp only
  rw [assemble_octets, List.reverse_nil, List.nil_append, Utf8.decode_encode]

/-- An escaped text has percent signs, and otherwise only characters that stay as they are. -/
theorem mem_encode {cs : List Char} {c : CodePoint} (h : c ∈ encode [] cs) :
    c = .char '%' ∨ ∃ a, c = .char a ∧ isUnreserved a = true := by
  obtain ⟨a, -, ha⟩ := List.mem_flatMap.mp h
  by_cases hplain : isUnreserved a = true
  · rw [if_pos (by simp [hplain])] at ha
    exact .inr ⟨a, List.mem_singleton.mp ha, hplain⟩
  · rw [if_neg (by simp [hplain])] at ha
    obtain ⟨b, -, hb⟩ := List.mem_flatMap.mp ha
    have hlt : b.toNat < 256 := b.toNat_lt
    simp only [escape, List.mem_cons, List.not_mem_nil, or_false] at hb
    rcases hb with rfl | rfl | rfl
    · exact .inl rfl
    · exact .inr ⟨_, rfl, isUnreserved_hexDigit (by omega)⟩
    · exact .inr ⟨_, rfl, isUnreserved_hexDigit (by omega)⟩

end Deeplink.Percent
