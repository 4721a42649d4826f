import Deeplink.Utf8

/-!
# Decoding what has been encoded

- `Utf8.decodeFrom_encodeChar`: the octets of a scalar value are decoded as that value, whatever
  comes after them.
- `Utf8.decode_encode`: a text of scalar values comes back from its octets.
-/

namespace Deeplink.Utf8

/-! ## First octets -/

section Lead

variable {b : UInt8}

/-- The first of two octets says that one is owed. -/
theorem lead?_two (start : Nat) (h : 0xC2 ≤ b.toNat) (h' : b.toNat < 0xE0) :
    lead? false start b = some ⟨b.toNat - 0xC0, 1, 0x80, 0xBF, start, b⟩ := by
  have hlow : ¬ b < 0xC2 := by
    rw [UInt8.lt_iff_toNat_lt]
    exact Nat.not_lt.mpr h
  have hhigh : b < 0xE0 := UInt8.lt_iff_toNat_lt.mpr h'
  rw [lead?, if_neg hlow, if_pos hhigh]

/-- The second octet of three is in the range that the first one sets, if the sequence is neither
too long nor that of a surrogate. -/
theorem lead?_three (start second : Nat) (h : 0xE0 ≤ b.toNat) (h' : b.toNat < 0xF0)
    (hlow : 0x80 ≤ second) (hhigh : second ≤ 0xBF) (hlong : b.toNat = 0xE0 → 0xA0 ≤ second)
    (hsurrogate : b.toNat = 0xED → second ≤ 0x9F) :
    ∃ low high, lead? false start b = some ⟨b.toNat - 0xE0, 2, low, high, start, b⟩
      ∧ low.toNat ≤ second ∧ second ≤ high.toNat := by
  have hne : ∀ n : UInt8, b = n ↔ b.toNat = n.toNat := fun n => UInt8.toNat_inj.symm
  have hlt : ∀ n : UInt8, b < n ↔ b.toNat < n.toNat := fun n => UInt8.lt_iff_toNat_lt
  have h1 : ¬ b < 0xC2 := by
    rw [hlt]
    simp only [UInt8.reduceToNat]
    omega
  have h2 : ¬ b < 0xE0 := by
    rw [hlt]
    exact Nat.not_lt.mpr h
  rw [lead?, if_neg h1, if_neg h2]
  by_cases h3 : b = 0xE0
  · subst h3
    exact ⟨0xA0, 0xBF, rfl, hlong rfl, hhigh⟩
  · by_cases h4 : b = 0xED
    · subst h4
      exact ⟨0x80, 0x9F, rfl, hlow, hsurrogate rfl⟩
    · have h5 : b < 0xF0 := (hlt _).mpr h'
      rw [if_neg h3, if_neg (by simp [h4]), if_pos h5]
      exact ⟨0x80, 0xBF, rfl, hlow, hhigh⟩

/-- So is the second octet of four, if the number is neither too small nor too large. -/
theorem lead?_four (start second : Nat) (h : 0xF0 ≤ b.toNat) (h' : b.toNat ≤ 0xF4)
    (hlow : 0x80 ≤ second) (hhigh : second ≤ 0xBF) (hsmall : b.toNat = 0xF0 → 0x90 ≤ second)
    (hlarge : b.toNat = 0xF4 → second ≤ 0x8F) :
    ∃ low high, lead? false start b = some ⟨b.toNat - 0xF0, 3, low, high, start, b⟩
      ∧ low.toNat ≤ second ∧ second ≤ high.toNat := by
  have hlt : ∀ n : UInt8, b < n ↔ b.toNat < n.toNat := fun n => UInt8.lt_iff_toNat_lt
  have h1 : ¬ b < 0xC2 := by
    rw [hlt]
    simp only [UInt8.reduceToNat]
    omega
  have h2 : ¬ b < 0xE0 := by
    rw [hlt]
    simp only [UInt8.reduceToNat]
    omega
  have h3 : b ≠ 0xE0 := by
    rintro rfl
    revert h
    decide
  have h4 : b ≠ 0xED := by
    rintro rfl
    revert h
    decide
  have h5 : ¬ b < 0xF0 := by
    rw [hlt]
    exact Nat.not_lt.mpr h
  rw [lead?, if_neg h1, if_neg h2, if_neg h3, if_neg (by simp [h4]), if_neg h5]
  by_cases h6 : b = 0xF0
  · subst h6
    exact ⟨0x90, 0xBF, rfl, hsmall rfl, hhigh⟩
  · by_cases h7 : b < 0xF4
    · rw [if_neg h6, if_pos h7]
      exact ⟨0x80, 0xBF, rfl, hlow, hhigh⟩
    · have h8 : b = 0xF4 := by
        rw [hlt] at h7
        simp only [UInt8.reduceToNat] at h7
        exact UInt8.toNat_inj.mp (Nat.le_antisymm h' (Nat.not_lt.mp h7))
      subst h8
      exact ⟨0x80, 0x8F, rfl, hlow, hlarge rfl⟩

end Lead

/-! ## One octet after the other -/

section Steps

variable {b : UInt8} {bs : List UInt8} {t : Text} {pos : Nat}

/-- An octet of seven bits is a character by itself. -/
theorem decodeFrom_ascii (hb : b.toNat < 0x80)
    (h : decodeFrom false none (pos + 1) bs = .ok t) :
    decodeFrom false none pos (b :: bs) = .ok (.ofNat b.toNat :: t) := by
  have hlt : b < 0x80 := UInt8.lt_iff_toNat_lt.mpr hb
  rw [decodeFrom, if_pos hlt, h]
  rfl

/-- A first octet is kept until those that it owes have come. -/
theorem decodeFrom_lead {p : Partial} (hb : 0x80 ≤ b.toNat) (hp : lead? false pos b = some p) :
    decodeFrom false none pos (b :: bs) = decodeFrom false (some p) (pos + 1) bs := by
  have hlt : ¬ b < 0x80 := by
    rw [UInt8.lt_iff_toNat_lt]
    exact Nat.not_lt.mpr hb
  rw [decodeFrom, if_neg hlt, hp]

/-- The last octet that is owed completes the character. -/
theorem decodeFrom_last {p : Partial} (hb : p.low.toNat ≤ b.toNat) (hb' : b.toNat ≤ p.high.toNat)
    (howed : p.owed = 1) (h : decodeFrom false none (pos + 1) bs = .ok t) :
    decodeFrom false (some p) pos (b :: bs) = .ok (.ofNat (p.push b) :: t) := by
  have hrange : p.low ≤ b ∧ b ≤ p.high :=
    ⟨UInt8.le_iff_toNat_le.mpr hb, UInt8.le_iff_toNat_le.mpr hb'⟩
  rw [decodeFrom, if_pos hrange, if_pos howed, h]
  rfl

/-- Every other octet that is owed adds six bits. -/
theorem decodeFrom_more {p : Partial} (hb : p.low.toNat ≤ b.toNat) (hb' : b.toNat ≤ p.high.toNat)
    (howed : p.owed ≠ 1) :
    decodeFrom false (some p) pos (b :: bs) = decodeFrom false
      (some { p with bits := p.push b, owed := p.owed - 1, low := 0x80, high := 0xBF })
      (pos + 1) bs := by
  have hrange : p.low ≤ b ∧ b ≤ p.high :=
    ⟨UInt8.le_iff_toNat_le.mpr hb, UInt8.le_iff_toNat_le.mpr hb'⟩
  rw [decodeFrom, if_pos hrange, if_neg howed]

end Steps

/-! ## Characters and texts -/

theorem toNat_ofNat {n : Nat} (h : n < 256) : (UInt8.ofNat n).toNat = n := by
  rw [UInt8.toNat_ofNat']
  exact Nat.mod_eq_of_lt h

section Lengths

variable {v : Nat} {b₀ b₁ b₂ b₃ : UInt8} {bs : List UInt8} {t : Text}

theorem push_eq (p : Partial) (b : UInt8) : p.push b = p.bits * 64 + (b.toNat - 0x80) := rfl

theorem low_toNat : (0x80 : UInt8).toNat = 0x80 := rfl

theorem high_toNat : (0xBF : UInt8).toNat = 0xBF := rfl

/-- Two octets make up a character of eleven bits. -/
theorem decodeFrom_two (h₀ : b₀.toNat = v / 64 + 192) (h₁ : b₁.toNat = v % 64 + 128)
    (hv : 0x80 ≤ v) (hv' : v < 0x800) (hbs : ∀ pos, decodeFrom false none pos bs = .ok t)
    (pos : Nat) : decodeFrom false none pos (b₀ :: b₁ :: bs) = .ok (.ofNat v :: t) := by
  have hpush : (b₀.toNat - 0xC0) * 64 + (b₁.toNat - 0x80) = v := by omega
  rw [decodeFrom_lead (by omega) (lead?_two pos (by omega) (by omega)),
    decodeFrom_last (by rw [low_toNat]; omega) (by rw [high_toNat]; omega) rfl (hbs _),
    push_eq, hpush]

/-- Three octets make up a character of sixteen bits that is no surrogate. -/
theorem decodeFrom_three (h₀ : b₀.toNat = v / 4096 + 224) (h₁ : b₁.toNat = v / 64 % 64 + 128)
    (h₂ : b₂.toNat = v % 64 + 128) (hv : 0x800 ≤ v) (hv' : v < 0x10000)
    (hscalar : v < 0xD800 ∨ 0xE000 ≤ v) (hbs : ∀ pos, decodeFrom false none pos bs = .ok t)
    (pos : Nat) : decodeFrom false none pos (b₀ :: b₁ :: b₂ :: bs) = .ok (.ofNat v :: t) := by
  obtain ⟨low, high, hlead, hlow, hhigh⟩ := lead?_three (b := b₀) pos b₁.toNat
    (by omega) (by omega) (by omega) (by omega) (by omega) (by omega)
  have hpush : ((b₀.toNat - 0xE0) * 64 + (b₁.toNat - 0x80)) * 64 + (b₂.toNat - 0x80) = v := by
    omega
  rw [decodeFrom_lead (by omega) hlead, decodeFrom_more hlow hhigh (by simp),
    decodeFrom_last (by rw [low_toNat]; omega) (by rw [high_toNat]; omega) rfl (hbs _),
    push_eq, push_eq, hpush]

/-- Four octets make up a character beyond sixteen bits. -/
theorem decodeFrom_four (h₀ : b₀.toNat = v / 262144 + 240) (h₁ : b₁.toNat = v / 4096 % 64 + 128)
    (h₂ : b₂.toNat = v / 64 % 64 + 128) (h₃ : b₃.toNat = v % 64 + 128) (hv : 0x10000 ≤ v)
    (hv' : v < 0x110000) (hbs : ∀ pos, decodeFrom false none pos bs = .ok t) (pos : Nat) :
    decodeFrom false none pos (b₀ :: b₁ :: b₂ :: b₃ :: bs) = .ok (.ofNat v :: t) := by
  obtain ⟨low, high, hlead, hlow, hhigh⟩ := lead?_four (b := b₀) pos b₁.toNat
    (by omega) (by omega) (by omega) (by omega) (by omega) (by omega)
  have hpush : (((b₀.toNat - 0xF0) * 64 + (b₁.toNat - 0x80)) * 64 + (b₂.toNat - 0x80)) * 64
      + (b₃.toNat - 0x80) = v := by omega
  rw [decodeFrom_lead (by omega) hlead, decodeFrom_more hlow hhigh (by simp),
    decodeFrom_more (by rw [low_toNat]; omega) (by rw [high_toNat]; omega) (by simp),
    decodeFrom_last (by rw [low_toNat]; omega) (by rw [high_toNat]; omega) rfl (hbs _),
    push_eq, push_eq, push_eq, hpush]

end Lengths

/-- **A character is decoded from its octets**, and the octets after them are decoded on their
own. The cases are the four lengths of a sequence. -/
theorem decodeFrom_encodeChar (c : Char) {bs : List UInt8} {t : Text}
    (hbs : ∀ pos, decodeFrom false none pos bs = .ok t) (pos : Nat) :
    decodeFrom false none pos (encodeChar c ++ bs) = .ok (.char c :: t) := by
  have hc : CodePoint.ofNat c.val.toNat = .char c := CodePoint.ofNat_toNat (.char c)
  have hvalid : c.val.toNat < 0xD800 ∨ 0xE000 ≤ c.val.toNat ∧ c.val.toNat < 0x110000 := by
    have := c.valid
    simp only [UInt32.isValidChar, Nat.isValidChar] at this
    omega
  rw [← hc]
  unfold encodeChar String.utf8EncodeChar
  generalize c.val.toNat = v at hvalid
  dsimp only
  split
  · next h =>
    -- one octet, and then two, three and four
    have hv : (UInt8.ofNat v).toNat = v := toNat_ofNat (by omega)
    rw [List.singleton_append, decodeFrom_ascii (by omega) (hbs _), hv]
  · next h =>
    split
    · next h' =>
      refine decodeFrom_two ?_ ?_ (by omega) (by omega) hbs pos
      · exact (toNat_ofNat (by omega)).trans (by omega)
      · exact toNat_ofNat (by omega)
    · next h' =>
      split
      · next h'' =>
        refine decodeFrom_three ?_ ?_ ?_ (by omega) (by omega) (by omega) hbs pos
        · exact (toNat_ofNat (by omega)).trans (by omega)
        · exact toNat_ofNat (by omega)
        · exact toNat_ofNat (by omega)
      · next h'' =>
        refine decodeFrom_four ?_ ?_ ?_ ?_ (by omega) (by omega) hbs pos
        · exact (toNat_ofNat (by omega)).trans (by omega)
        · exact toNat_ofNat (by omega)
        · exact toNat_ofNat (by omega)
        · exact toNat_ofNat (by omega)

/-- **What is encoded comes back.** -/
theorem decode_encode (cs : List Char) :
    decode (cs.flatMap encodeChar) = .ok (Text.ofChars cs) := by
  have hfrom : ∀ pos, decodeFrom false none pos (cs.flatMap encodeChar)
      = .ok (Text.ofChars cs) := by
    induction cs with
    | nil => exact fun pos => rfl
    | cons c cs ih => exact decodeFrom_encodeChar c ih
  exact hfrom 0

end Deeplink.Utf8
