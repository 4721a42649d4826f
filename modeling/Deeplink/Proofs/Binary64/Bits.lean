import Deeplink.Binary64
import Mathlib.Algebra.Group.Nat.Defs
import Mathlib.Order.Monotone.Basic

/-!
# The bits of binary64 numbers

Without its sign, the bits of a number count up with its magnitude, one number after the other.

- `Binary64.magnitudeBits`: the bits of a number without its sign.
- `Binary64.unitsAt`: the magnitude of these bits, as if the exponents went on for ever.
- `Binary64.unitsAt_significand`, `Binary64.exists_significand`: magnitudes are significands of at
  most 53 bits, shifted.
- `Binary64.unitsAt_strictMono`: more bits are a greater magnitude.
- `Binary64.isFinite_iff`, `Binary64.isInfinite_iff`: the finite numbers come before infinity.
-/

namespace Deeplink.Binary64

/-! ## Magnitudes -/

/-- The bits without the sign. -/
def magnitudeBits (x : Binary64) : Nat := x.exponent * 2 ^ 52 + x.fraction

/-- The magnitude of bits in units of `2⁻¹⁰⁷⁴`. There is no greatest exponent. -/
def unitsAt (bits : Nat) : Nat :=
  if bits / 2 ^ 52 = 0 then bits % 2 ^ 52
  else (2 ^ 52 + bits % 2 ^ 52) * 2 ^ (bits / 2 ^ 52 - 1)

theorem fraction_lt (x : Binary64) : x.fraction < 2 ^ 52 := Nat.mod_lt _ (by decide)

theorem exponent_le (x : Binary64) : x.exponent ≤ 2047 :=
  Nat.le_of_lt_succ (Nat.mod_lt _ (by decide))

/-- The units of a number depend on its magnitude only. -/
theorem units_eq (x : Binary64) : x.units = unitsAt x.magnitudeBits := by
  have hfraction := x.fraction_lt
  have hexponent : x.magnitudeBits / 2 ^ 52 = x.exponent := by
    unfold magnitudeBits
    omega
  have hrest : x.magnitudeBits % 2 ^ 52 = x.fraction := by
    unfold magnitudeBits
    omega
  rw [unitsAt, hexponent, hrest]
  rfl

/-- A significand of at most 53 bits, shifted. The greatest one is the first of the next shift. -/
theorem unitsAt_significand {shift m : Nat} (hm : m ≤ 2 ^ 53) (h : shift = 0 ∨ 2 ^ 52 ≤ m) :
    unitsAt (shift * 2 ^ 52 + m) = m * 2 ^ shift := by
  rcases Nat.lt_or_ge m (2 ^ 52) with hsmall | hlarge
  · -- a number below the normal ones has no hidden bit
    obtain rfl : shift = 0 := h.resolve_right (Nat.not_le.mpr hsmall)
    rw [unitsAt, if_pos (by omega), Nat.pow_zero, Nat.mul_one]
    omega
  · rcases Nat.eq_or_lt_of_le hm with rfl | hlt
    · have hexponent : (shift * 2 ^ 52 + 2 ^ 53) / 2 ^ 52 = shift + 2 := by omega
      have hrest : (shift * 2 ^ 52 + 2 ^ 53) % 2 ^ 52 = 0 := by omega
      rw [unitsAt, hexponent, hrest, if_neg (by omega), Nat.add_zero]
      have hdouble : 2 ^ 52 * 2 = 2 ^ 53 := by decide
      show 2 ^ 52 * (2 ^ shift * 2) = _
      rw [Nat.mul_comm (2 ^ shift), ← Nat.mul_assoc, hdouble]
    · have hexponent : (shift * 2 ^ 52 + m) / 2 ^ 52 = shift + 1 := by omega
      have hrest : (shift * 2 ^ 52 + m) % 2 ^ 52 = m - 2 ^ 52 := by omega
      rw [unitsAt, hexponent, hrest, if_neg (by omega), Nat.add_sub_cancel' hlarge]
      rfl

/-- Every pattern of bits has a shift and a significand, which has its leading bit unless the shift
is zero. -/
theorem exists_significand (bits : Nat) :
    ∃ shift m, bits = shift * 2 ^ 52 + m ∧ m < 2 ^ 53 ∧ (shift = 0 ∨ 2 ^ 52 ≤ m) :=
  ⟨bits / 2 ^ 52 - 1, bits - (bits / 2 ^ 52 - 1) * 2 ^ 52, by omega, by omega, by omega⟩

/-- **More bits are a greater magnitude.** The next number has one unit more in its last place. -/
theorem unitsAt_strictMono : StrictMono unitsAt := by
  refine strictMono_nat_of_lt_succ fun bits => ?_
  obtain ⟨shift, m, rfl, hm, h⟩ := exists_significand bits
  rw [unitsAt_significand hm.le h, Nat.add_assoc,
    unitsAt_significand (by omega) (h.imp_right fun h => by omega)]
  exact Nat.mul_lt_mul_of_pos_right (Nat.lt_succ_self m) (Nat.two_pow_pos shift)

/-! ## Numbers and their bits -/

/-- The finite numbers are those below infinity, in the order of their patterns. -/
theorem isFinite_iff (x : Binary64) : x.isFinite = true ↔ x.magnitudeBits < infinityBits := by
  have hfraction := x.fraction_lt
  have hexponent := x.exponent_le
  rw [isFinite, bne_iff_ne, infinityBits, magnitudeBits, Nat.pow_eq]
  omega

/-- There is one pattern for infinity. -/
theorem isInfinite_iff (x : Binary64) : x.isInfinite = true ↔ x.magnitudeBits = infinityBits := by
  have hfraction := x.fraction_lt
  have hexponent := x.exponent_le
  rw [isInfinite, Bool.and_eq_true, beq_iff_eq, beq_iff_eq, infinityBits, magnitudeBits, Nat.pow_eq]
  omega

/-- A number consists of its sign and the bits without it. -/
theorem bits_toNat (x : Binary64) :
    x.bits.toNat = (if x.isNegative then 2 ^ 63 else 0) + x.magnitudeBits := by
  have hlt := x.bits.toNat_lt
  simp only [isNegative, magnitudeBits, exponent, fraction, Nat.pow_eq, decide_eq_true_eq]
  split <;> omega

/-- The last bit says whether the magnitude is even. -/
theorem bits_mod_two (x : Binary64) : x.bits.toNat % 2 = x.magnitudeBits % 2 := by
  rw [x.bits_toNat]
  split <;> omega

/-- Numbers of the same sign and magnitude are equal. -/
theorem eq_of_magnitudeBits {x y : Binary64} (hsign : x.isNegative = y.isNegative)
    (h : x.magnitudeBits = y.magnitudeBits) : x = y := by
  obtain ⟨a⟩ := x
  obtain ⟨b⟩ := y
  have hbits : a.toNat = b.toNat := by
    rw [bits_toNat ⟨a⟩, bits_toNat ⟨b⟩, hsign, h]
  rw [UInt64.toNat_inj.mp hbits]

section OfMagnitude

variable (negative : Bool) {bits : Nat}

theorem ofMagnitude_toNat (h : bits < 2 ^ 63) :
    (ofMagnitude negative bits).bits.toNat = (if negative then 2 ^ 63 else 0) + bits := by
  have hlt : (if negative then 2 ^ 63 + bits else bits) < 2 ^ 64 := by split <;> omega
  show (if negative then Nat.pow 2 63 + bits else bits).toUInt64.toNat = _
  rw [Nat.pow_eq, UInt64.toNat_ofNat_of_lt' hlt]
  split <;> omega

/-- The sign bit is given back as it is. -/
theorem isNegative_ofMagnitude (h : bits < 2 ^ 63) :
    (ofMagnitude negative bits).isNegative = negative := by
  rw [isNegative, ofMagnitude_toNat negative h, Nat.pow_eq]
  cases negative
  · exact decide_eq_false (by simpa using h)
  · exact decide_eq_true (by simp)

/-- The bits of the magnitude are given back as they are; they leave the sign bit alone. -/
theorem magnitudeBits_ofMagnitude (h : bits < 2 ^ 63) :
    (ofMagnitude negative bits).magnitudeBits = bits := by
  have hbits := (ofMagnitude negative bits).bits_toNat
  rw [ofMagnitude_toNat negative h, isNegative_ofMagnitude negative h] at hbits
  omega

end OfMagnitude

end Deeplink.Binary64
