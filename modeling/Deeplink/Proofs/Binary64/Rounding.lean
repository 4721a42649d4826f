import Deeplink.Proofs.Binary64.Bits
import Mathlib.Algebra.Order.Field.Power
import Mathlib.Data.Rat.Cast.Order
import Mathlib.Tactic.FieldSimp
import Mathlib.Tactic.Linarith
import Mathlib.Tactic.NormNum
import Mathlib.Tactic.Positivity
import Mathlib.Tactic.Ring

/-!
# Rounding to binary64 numbers

- `Binary64.IsNearest`: the number that rounding gives. No finite number is nearer, a tie goes to
  the even one, and from `2¹⁰²⁴ - 2⁹⁷⁰` on it is infinite.
- `Binary64.IsNearest.unique`: there is one such number.
- `Binary64.IsClosest`: the same for the bits of magnitudes, as if the exponents went on for ever.
- `Binary64.ratioBits_isClosest`: a quotient is rounded to the closest bits.
- `Binary64.ofRatio_near`: how much is rounded off.
- `Binary64.ofDecimal_isNearest`: a decimal number is rounded to the nearest number.
-/

namespace Deeplink.Binary64

/-! ## The nearest number -/

/-- The magnitude of a finite number. -/
def magnitude (x : Binary64) : ℚ := x.units / unitsPerOne

/-- Half way from the greatest finite number to the next power of two. -/
def overflow : ℚ := 2 ^ 1024 - 2 ^ 970

/-- The number that a magnitude with a sign is rounded to. -/
structure IsNearest (negative : Bool) (q : ℚ) (x : Binary64) : Prop where
  sign : x.isNegative = negative
  finite : x.isFinite = true ↔ q < overflow
  infinite : x.isInfinite = true ↔ overflow ≤ q
  /-- No finite number is nearer. -/
  closest : x.isFinite = true → ∀ y : Binary64, y.isFinite = true →
    |x.magnitude - q| ≤ |y.magnitude - q|
  /-- If another one is as near, then the last bit is zero. -/
  even : x.isFinite = true → ∀ y : Binary64, y.isFinite = true → y.magnitude ≠ x.magnitude →
    |y.magnitude - q| = |x.magnitude - q| → x.bits.toNat % 2 = 0

/-! ## The closest bits -/

/-- No magnitude is closer, and if another one is as close, then the last bit is zero. -/
structure IsClosest (u : ℚ) (bits : Nat) : Prop where
  closest : ∀ b, |(unitsAt bits : ℚ) - u| ≤ |(unitsAt b : ℚ) - u|
  even : ∀ b, b ≠ bits → |(unitsAt b : ℚ) - u| = |(unitsAt bits : ℚ) - u| → bits % 2 = 0

/-- What lies between two magnitudes of one distance is closer. -/
theorem closer_between {a b c : Nat} (hac : a < c) (hcb : c < b) {u : ℚ}
    (h : |(unitsAt a : ℚ) - u| = |(unitsAt b : ℚ) - u|) :
    |(unitsAt c : ℚ) - u| < |(unitsAt a : ℚ) - u| := by
  have hac : (unitsAt a : ℚ) < unitsAt c := Nat.cast_lt.mpr (unitsAt_strictMono hac)
  have hcb : (unitsAt c : ℚ) < unitsAt b := Nat.cast_lt.mpr (unitsAt_strictMono hcb)
  have hleft : |(unitsAt a : ℚ) - u| = u - unitsAt a ∧ |(unitsAt b : ℚ) - u| = unitsAt b - u := by
    rcases abs_eq_abs.mp h with heq | heq
    · linarith
    · constructor
      · rw [abs_sub_comm]
        exact abs_of_nonneg (by linarith)
      · exact abs_of_nonneg (by linarith)
  rw [abs_lt]
  constructor
  · linarith [hleft.1]
  · rw [h, hleft.2]
    linarith

/-- What is not closer than the width of one place is not closer than half of it. -/
theorem far_of_place {a b u place : ℚ} (ha : |a - u| ≤ place / 2) (hab : place ≤ |b - a|) :
    |a - u| ≤ |b - u| ∧ (|b - u| = |a - u| → |a - u| = place / 2) := by
  have htriangle : |b - a| ≤ |b - u| + |a - u| := by
    have h := abs_sub_le b u a
    rwa [abs_sub_comm u a] at h
  exact ⟨by linarith, fun h => by linarith⟩

section Place

variable {shift m : Nat} {u : ℚ}

/-- Two multiples of a place are at least that place apart. -/
theorem far_of_ne {k : Nat} (hk : k ≠ m) (hnear : |(m : ℚ) * 2 ^ shift - u| ≤ 2 ^ shift / 2) :
    |(m : ℚ) * 2 ^ shift - u| ≤ |(k : ℚ) * 2 ^ shift - u|
      ∧ (|(k : ℚ) * 2 ^ shift - u| = |(m : ℚ) * 2 ^ shift - u| →
        |(m : ℚ) * 2 ^ shift - u| = 2 ^ shift / 2) := by
  refine far_of_place hnear ?_
  have hpow : (0 : ℚ) < 2 ^ shift := by positivity
  have hone : (1 : ℚ) ≤ |(k : ℚ) - m| := by
    have hint : (1 : ℤ) ≤ |(k : ℤ) - m| := Int.one_le_abs (by omega)
    exact_mod_cast hint
  rw [← sub_mul, abs_mul, abs_of_pos hpow]
  exact le_mul_of_one_le_left hpow.le hone

/-- What has a smaller shift lies below the least significand, and that is not closer. -/
theorem closer_of_lt {shift' m' : Nat} (hlt : shift' < shift) (hm' : m' < 2 ^ 53)
    (hleast : (2 : ℚ) ^ 52 * 2 ^ shift ≤ u)
    (hnear : |(m : ℚ) * 2 ^ shift - u| ≤ 2 ^ shift / 2) :
    |(m : ℚ) * 2 ^ shift - u| < |((m' * 2 ^ shift' : ℕ) : ℚ) - u| := by
  have hbelow : ((m' * 2 ^ shift' : ℕ) : ℚ) < 2 ^ 52 * 2 ^ shift := by
    have hdouble : 2 ^ 53 * 2 ^ shift' ≤ 2 ^ 52 * 2 ^ shift := by
      rw [← Nat.pow_add, ← Nat.pow_add]
      exact Nat.pow_le_pow_right (by decide) (by omega)
    have hnat : m' * 2 ^ shift' < 2 ^ 52 * 2 ^ shift :=
      Nat.lt_of_lt_of_le (Nat.mul_lt_mul_of_pos_right hm' (Nat.two_pow_pos shift')) hdouble
    exact_mod_cast hnat
  have hcloser : |(m : ℚ) * 2 ^ shift - u| ≤ |(2 : ℚ) ^ 52 * 2 ^ shift - u| := by
    have hcast : ((2 ^ 52 : ℕ) : ℚ) = 2 ^ 52 := by norm_num
    rw [← hcast]
    by_cases hm : 2 ^ 52 = m
    · rw [hm]
    · exact (far_of_ne hm hnear).1
  calc |(m : ℚ) * 2 ^ shift - u|
    _ ≤ |(2 : ℚ) ^ 52 * 2 ^ shift - u| := hcloser
    _ = u - 2 ^ 52 * 2 ^ shift := by rw [abs_sub_comm, abs_of_nonneg (by linarith)]
    _ < u - (m' * 2 ^ shift' : ℕ) := by linarith
    _ = |((m' * 2 ^ shift' : ℕ) : ℚ) - u| := by rw [abs_sub_comm, abs_of_nonneg (by linarith)]

/-- What has the same shift or a greater one is a multiple of the place. -/
theorem far_of_le {shift' m' : Nat} (hle : shift ≤ shift')
    (hne : m' * 2 ^ shift' ≠ m * 2 ^ shift)
    (hnear : |(m : ℚ) * 2 ^ shift - u| ≤ 2 ^ shift / 2) :
    |(m : ℚ) * 2 ^ shift - u| ≤ |((m' * 2 ^ shift' : ℕ) : ℚ) - u|
      ∧ (|((m' * 2 ^ shift' : ℕ) : ℚ) - u| = |(m : ℚ) * 2 ^ shift - u| →
        |(m : ℚ) * 2 ^ shift - u| = 2 ^ shift / 2) := by
  obtain ⟨k, rfl⟩ := Nat.exists_eq_add_of_le hle
  have hnat : m' * 2 ^ (shift + k) = m' * 2 ^ k * 2 ^ shift := by
    rw [Nat.add_comm, Nat.pow_add, Nat.mul_assoc]
  have hmultiple : m' * 2 ^ k ≠ m := by
    intro h
    rw [hnat, h] at hne
    exact hne rfl
  rw [hnat, Nat.cast_mul, Nat.cast_pow, Nat.cast_ofNat]
  exact far_of_ne hmultiple hnear

/-- **A significand that is at most half a place away is the closest**, if an even one has the ties
and all 53 bits are used where the place allows it. -/
theorem isClosest_of_place (hm : m ≤ 2 ^ 53) (hnormal : shift = 0 ∨ 2 ^ 52 ≤ m)
    (hleast : shift = 0 ∨ (2 : ℚ) ^ 52 * 2 ^ shift ≤ u)
    (hnear : |(m : ℚ) * 2 ^ shift - u| ≤ 2 ^ shift / 2)
    (heven : |(m : ℚ) * 2 ^ shift - u| = 2 ^ shift / 2 → m % 2 = 0) :
    IsClosest u (shift * 2 ^ 52 + m) := by
  have hunits := unitsAt_significand hm hnormal
  have hcast : (unitsAt (shift * 2 ^ 52 + m) : ℚ) = m * 2 ^ shift := by
    rw [hunits]
    push_cast
    rfl
  have hother (b : Nat) (hb : b ≠ shift * 2 ^ 52 + m) :
      |(m : ℚ) * 2 ^ shift - u| ≤ |(unitsAt b : ℚ) - u|
        ∧ (|(unitsAt b : ℚ) - u| = |(m : ℚ) * 2 ^ shift - u| → m % 2 = 0) := by
    obtain ⟨shift', m', hb', hm', hnormal'⟩ := exists_significand b
    have hunits' : unitsAt b = m' * 2 ^ shift' := by
      rw [hb', unitsAt_significand hm'.le hnormal']
    rcases Nat.lt_or_ge shift' shift with hlt | hge
    · have hcloser := closer_of_lt hlt hm'
        (hleast.resolve_left (Nat.ne_of_gt (Nat.zero_lt_of_lt hlt))) hnear
      rw [hunits']
      exact ⟨hcloser.le, fun h => absurd h hcloser.ne'⟩
    · have hne : m' * 2 ^ shift' ≠ m * 2 ^ shift := by
        rw [← hunits', ← hunits]
        exact unitsAt_strictMono.injective.ne hb
      obtain ⟨hle, htie⟩ := far_of_le hge hne hnear
      rw [hunits']
      exact ⟨hle, fun h => heven (htie h)⟩
  constructor
  · intro b
    rw [hcast]
    by_cases hb : b = shift * 2 ^ 52 + m
    · rw [hb, hcast]
    · exact (hother b hb).1
  · intro b hb h
    rw [hcast] at h
    have hparity := (hother b hb).2 h
    omega

end Place

/-! ## Quotients -/

theorem nearest_bounds (n d : Nat) : n / d ≤ nearest n d ∧ nearest n d ≤ n / d + 1 := by
  simp only [nearest]
  split
  · omega
  · split <;> omega

/-- The nearest whole number is at most one half away, and it is even if that is the distance. -/
theorem nearest_half (n : Nat) {d : Nat} (hd : 0 < d) :
    |(nearest n d : ℚ) - n / d| ≤ 1 / 2
      ∧ (|(nearest n d : ℚ) - n / d| = 1 / 2 → nearest n d % 2 = 0) := by
  have hparts := Nat.div_add_mod n d
  have hrest := Nat.mod_lt n hd
  -- twice the distance from `n` to the multiple, in whole numbers
  have hnat : 2 * n ≤ 2 * (d * nearest n d) + d ∧ 2 * (d * nearest n d) ≤ 2 * n + d
      ∧ (2 * n = 2 * (d * nearest n d) + d ∨ 2 * (d * nearest n d) = 2 * n + d →
        nearest n d % 2 = 0) := by
    have hsucc : d * (n / d + 1) = d * (n / d) + d := Nat.mul_succ _ _
    simp only [nearest]
    split
    · omega
    · split
      · rw [hsucc]
        omega
      · rcases Nat.mod_two_eq_zero_or_one (n / d) with heven | hodd
        · rw [heven, Nat.add_zero]
          omega
        · rw [hodd, hsucc]
          omega
  obtain ⟨habove, hbelow, htie⟩ := hnat
  have hd' : (0 : ℚ) < d := Nat.cast_pos.mpr hd
  have hcast : (nearest n d : ℚ) - n / d = (2 * (d * nearest n d) - 2 * n) / (2 * d) := by
    field_simp
  have habove' : (2 * n : ℚ) ≤ 2 * (d * nearest n d) + d := by exact_mod_cast habove
  have hbelow' : (2 * (d * nearest n d) : ℚ) ≤ 2 * n + d := by exact_mod_cast hbelow
  constructor
  · rw [hcast, abs_le, le_div_iff₀ (by positivity), div_le_iff₀ (by positivity)]
    constructor <;> linarith
  · intro heq
    refine htie ?_
    rw [hcast] at heq
    rcases (abs_eq (by norm_num)).mp heq with heq | heq
    · rw [div_eq_iff (by positivity)] at heq
      have hright : (2 * (d * nearest n d) : ℚ) = 2 * n + d := by linarith
      exact .inr (by exact_mod_cast hright)
    · rw [div_eq_iff (by positivity)] at heq
      have hleft : (2 * n : ℚ) = 2 * (d * nearest n d) + d := by linarith
      exact .inl (by exact_mod_cast hleft)

/-- The bits that the quotient of two numbers of units is rounded to. -/
def ratioBits (n d : Nat) : Nat :=
  let shift := Nat.log2 (n / d) - 52
  shift * 2 ^ 52 + nearest n (d * 2 ^ shift)

/-- The significand has at most 53 bits, and all of them if it is shifted. -/
theorem ratio_significand (n : Nat) {d : Nat} (hd : 0 < d) {shift : Nat}
    (hshift : shift = Nat.log2 (n / d) - 52) :
    n < 2 ^ 53 * (d * 2 ^ shift) ∧ (shift = 0 ∨ 2 ^ 52 * (d * 2 ^ shift) ≤ n) := by
  have hcomm (k : Nat) : 2 ^ k * (d * 2 ^ shift) = 2 ^ (k + shift) * d := by
    rw [Nat.pow_add, Nat.mul_comm d, Nat.mul_assoc]
  constructor
  · have hlt : n / d < 2 ^ (53 + shift) :=
      Nat.lt_of_lt_of_le Nat.lt_log2_self (Nat.pow_le_pow_right (by decide) (by omega))
    rw [hcomm]
    exact (Nat.div_lt_iff_lt_mul hd).mp hlt
  · rcases Nat.eq_zero_or_pos shift with hzero | hpos
    · exact .inl hzero
    · refine .inr ?_
      have hne : n / d ≠ 0 := by
        intro h
        rw [h, Nat.log2_zero] at hshift
        omega
      have hle : 2 ^ (52 + shift) ≤ n / d := by
        have hlog : 52 + shift = Nat.log2 (n / d) := by omega
        rw [hlog]
        exact Nat.log2_self_le hne
      rw [hcomm]
      exact (Nat.le_div_iff_mul_le hd).mp hle

/-- A quotient is rounded to a significand at its place, from which it is at most half a place
away. -/
theorem ratioBits_parts (n : Nat) {d : Nat} (hd : 0 < d) : ∃ shift m : Nat,
    ratioBits n d = shift * 2 ^ 52 + m ∧ m ≤ 2 ^ 53 ∧ (shift = 0 ∨ 2 ^ 52 ≤ m)
      ∧ (shift = 0 ∨ (2 : ℚ) ^ 52 * 2 ^ shift ≤ n / d)
      ∧ |(m : ℚ) * 2 ^ shift - n / d| ≤ 2 ^ shift / 2
      ∧ (|(m : ℚ) * 2 ^ shift - n / d| = 2 ^ shift / 2 → m % 2 = 0) := by
  obtain ⟨shift, hshift⟩ : ∃ shift, shift = Nat.log2 (n / d) - 52 := ⟨_, rfl⟩
  obtain ⟨m, hm⟩ : ∃ m, m = nearest n (d * 2 ^ shift) := ⟨_, rfl⟩
  have hbits : ratioBits n d = shift * 2 ^ 52 + m := by
    rw [hm, hshift]
    rfl
  have hplace : 0 < d * 2 ^ shift := Nat.mul_pos hd (Nat.two_pow_pos shift)
  have hpow : (0 : ℚ) < 2 ^ shift := by positivity
  have hd' : (0 : ℚ) < d := Nat.cast_pos.mpr hd
  obtain ⟨hbelow, habove⟩ := ratio_significand n hd hshift
  obtain ⟨hlow, hhigh⟩ := nearest_bounds n (d * 2 ^ shift)
  obtain ⟨hhalf, heven⟩ := nearest_half n hplace
  have hscale : |(m : ℚ) * 2 ^ shift - n / d|
      = |(m : ℚ) - n / (d * 2 ^ shift : ℕ)| * 2 ^ shift := by
    rw [← abs_of_pos hpow, ← abs_mul, abs_of_pos hpow]
    congr 1
    push_cast
    field_simp
  rw [← hm] at hlow hhigh hhalf heven
  refine ⟨shift, m, hbits, ?_, ?_, ?_, ?_, ?_⟩
  · have hquotient := (Nat.div_lt_iff_lt_mul hplace).mpr hbelow
    omega
  · refine habove.imp_right fun h => ?_
    have hquotient := (Nat.le_div_iff_mul_le hplace).mpr h
    omega
  · refine habove.imp_right fun h => ?_
    rw [le_div_iff₀ hd', mul_assoc, mul_comm _ (d : ℚ)]
    exact_mod_cast h
  · rw [hscale]
    linarith [mul_le_mul_of_nonneg_right hhalf hpow.le]
  · intro h
    refine heven (mul_right_cancel₀ hpow.ne' ?_)
    rw [← hscale, h]
    ring

/-- **A quotient is rounded to the closest bits.** -/
theorem ratioBits_isClosest (n : Nat) {d : Nat} (hd : 0 < d) :
    IsClosest (n / d) (ratioBits n d) := by
  obtain ⟨shift, m, hbits, hm, hnormal, hleast, hnear, heven⟩ := ratioBits_parts n hd
  rw [hbits]
  exact isClosest_of_place hm hnormal hleast hnear heven

/-- What is rounded off is at most half a unit, or one part of `2⁵³`. -/
theorem unitsAt_ratioBits_near (n : Nat) {d : Nat} (hd : 0 < d) :
    |(unitsAt (ratioBits n d) : ℚ) - n / d| ≤ max (1 / 2 : ℚ) ((n / d : ℚ) / 2 ^ 53) := by
  obtain ⟨shift, m, hbits, hm, hnormal, hleast, hnear, -⟩ := ratioBits_parts n hd
  rw [hbits, unitsAt_significand hm hnormal, Nat.cast_mul, Nat.cast_pow, Nat.cast_ofNat]
  refine hnear.trans ?_
  rcases hleast with rfl | hle
  · rw [pow_zero]
    exact le_max_left _ _
  · refine le_max_of_le_right ?_
    rw [le_div_iff₀ (by positivity)]
    linarith

/-! ## Overflow -/

theorem unitsPerOne_eq : unitsPerOne = 2 ^ 1074 := by
  delta unitsPerOne
  -- the power itself need not be worked out
  generalize 1074 = k
  rfl

theorem unitsPerOne_pos : (0 : ℚ) < unitsPerOne := by
  rw [unitsPerOne_eq]
  positivity

/-- The bits that come before those of infinity. -/
theorem infinityBits_sub_one : infinityBits - 1 = 2045 * 2 ^ 52 + (2 ^ 53 - 1) := rfl

theorem infinityBits_eq : infinityBits = 2045 * 2 ^ 52 + 2 ^ 53 := rfl

/-- The overflow lies half way between the last two of these magnitudes. -/
theorem units_of_overflow : (unitsAt (infinityBits - 1) : ℚ) + unitsAt infinityBits
    = 2 * (overflow * unitsPerOne) := by
  have hplace : (2 : ℚ) ^ 2045 = 2 ^ 970 * 2 ^ 1074 * 2 := by rw [← pow_add, ← pow_succ]
  have hpower : (2 : ℚ) ^ 1024 = 2 ^ 970 * 2 ^ 54 := by rw [← pow_add]
  rw [infinityBits_sub_one, infinityBits_eq, unitsAt_significand (by decide) (.inr (by decide)),
    unitsAt_significand (by decide) (.inr (by decide)), overflow, unitsPerOne_eq]
  simp only [Nat.cast_mul, Nat.cast_pow, Nat.cast_ofNat, hplace, hpower]
  generalize (2 : ℚ) ^ 970 = a
  generalize (2 : ℚ) ^ 1074 = b
  norm_num
  ring

/-- **The bits of infinity are reached at the overflow.** Half way to them, they have the tie. -/
theorem IsClosest.lt_infinityBits_iff {q : ℚ} {bits : Nat}
    (h : IsClosest (q * unitsPerOne) bits) : bits < infinityBits ↔ q < overflow := by
  have hhalf := units_of_overflow
  have hpos : 0 < infinityBits := by decide
  have hlast : (unitsAt (infinityBits - 1) : ℚ) < unitsAt infinityBits :=
    Nat.cast_lt.mpr (unitsAt_strictMono (Nat.sub_lt hpos Nat.one_pos))
  rw [← mul_lt_mul_iff_of_pos_right unitsPerOne_pos]
  generalize overflow * unitsPerOne = t at *
  generalize q * unitsPerOne = u at *
  constructor
  · intro hbits
    by_contra hu
    have hle : (unitsAt bits : ℚ) ≤ unitsAt (infinityBits - 1) :=
      Nat.cast_le.mpr (unitsAt_strictMono.monotone (Nat.le_sub_one_of_lt hbits))
    have hfar : |(unitsAt infinityBits : ℚ) - u| ≤ u - unitsAt (infinityBits - 1) := by
      rw [abs_le]
      constructor <;> linarith
    have hclosest := h.closest infinityBits
    rw [abs_sub_comm (unitsAt bits : ℚ), abs_of_nonneg (by linarith)] at hclosest
    -- so these are the last bits before infinity, and infinity is as close
    have heq : bits = infinityBits - 1 := by
      refine unitsAt_strictMono.injective (Nat.cast_injective (R := ℚ) ?_)
      linarith
    have heven := h.even infinityBits (Nat.ne_of_gt hbits)
    subst heq
    have hnear : |(unitsAt (infinityBits - 1) : ℚ) - u| = u - unitsAt (infinityBits - 1) := by
      rw [abs_sub_comm, abs_of_nonneg (by linarith)]
    have hodd := heven (by rw [hnear]; linarith)
    cases hodd
  · intro hu
    by_contra hbits
    have hge : (unitsAt infinityBits : ℚ) ≤ unitsAt bits :=
      Nat.cast_le.mpr (unitsAt_strictMono.monotone (Nat.le_of_not_lt hbits))
    have hnear : |(unitsAt (infinityBits - 1) : ℚ) - u| < unitsAt infinityBits - u := by
      rw [abs_lt]
      constructor <;> linarith
    have hclosest := h.closest (infinityBits - 1)
    rw [abs_of_nonneg (by linarith)] at hclosest
    linarith

/-! ## Numbers -/

section Nearest

variable {negative : Bool} {q : ℚ}

theorem magnitude_sub (x : Binary64) (q : ℚ) :
    |x.magnitude - q| = |(unitsAt x.magnitudeBits : ℚ) - q * unitsPerOne| / unitsPerOne := by
  have hpos := unitsPerOne_pos
  rw [magnitude, units_eq, ← abs_of_pos hpos, ← abs_div, abs_of_pos hpos, sub_div,
    mul_div_cancel_right₀ _ hpos.ne']

/-- The closest bits are those of the nearest number, if they come before those of infinity. -/
theorem IsClosest.isNearest {bits : Nat} (h : IsClosest (q * unitsPerOne) bits) :
    IsNearest negative q (ofMagnitude negative (min bits infinityBits)) := by
  have hpos := unitsPerOne_pos
  have hlt : min bits infinityBits < 2 ^ 63 :=
    Nat.lt_of_le_of_lt (Nat.min_le_right _ _) (by decide)
  have hbits := magnitudeBits_ofMagnitude negative hlt
  have hfinite : (ofMagnitude negative (min bits infinityBits)).isFinite = true
      ↔ bits < infinityBits := by
    rw [isFinite_iff, hbits]
    omega
  refine ⟨isNegative_ofMagnitude negative hlt, ?_, ?_, ?_, ?_⟩
  · rw [hfinite, h.lt_infinityBits_iff]
  · rw [isInfinite_iff, hbits, ← not_lt, ← h.lt_infinityBits_iff]
    omega
  · intro hx y hy
    have hmin := Nat.min_eq_left (hfinite.mp hx).le
    rw [magnitude_sub, magnitude_sub, hbits, hmin, div_le_div_iff_of_pos_right hpos]
    exact h.closest y.magnitudeBits
  · intro hx y hy hne heq
    have hmin := Nat.min_eq_left (hfinite.mp hx).le
    rw [magnitude_sub, magnitude_sub, hbits, hmin, div_left_inj' hpos.ne'] at heq
    rw [bits_mod_two, hbits, hmin]
    refine h.even y.magnitudeBits ?_ heq
    rintro hy
    rw [magnitude, magnitude, units_eq, units_eq, hbits, hmin, hy] at hne
    exact hne rfl

/-- Between two even numbers there is an odd one, which is nearer than both if they have the same
distance. -/
theorem IsNearest.not_lt {x y : Binary64} (hx : IsNearest negative q x)
    (hy : IsNearest negative q y) (hq : q < overflow) : ¬ x.magnitudeBits < y.magnitudeBits := by
  intro hlt
  have hxfinite := hx.finite.mpr hq
  have hyfinite := hy.finite.mpr hq
  have hpos := unitsPerOne_pos
  have hdistance : |x.magnitude - q| = |y.magnitude - q| :=
    le_antisymm (hx.closest hxfinite y hyfinite) (hy.closest hyfinite x hxfinite)
  have hne : x.magnitude ≠ y.magnitude := by
    intro h
    rw [magnitude, magnitude, units_eq, units_eq, div_left_inj' hpos.ne', Nat.cast_inj] at h
    exact Nat.ne_of_lt (unitsAt_strictMono hlt) h
  have hxeven := hx.even hxfinite y hyfinite hne.symm hdistance.symm
  have hyeven := hy.even hyfinite x hxfinite hne hdistance
  rw [bits_mod_two] at hxeven hyeven
  have hbetween : x.magnitudeBits + 1 < y.magnitudeBits := by omega
  -- the number behind the first one
  have hylt := (isFinite_iff y).mp hyfinite
  have hbits : (ofMagnitude false (x.magnitudeBits + 1)).magnitudeBits = x.magnitudeBits + 1 :=
    magnitudeBits_ofMagnitude false (Nat.lt_trans (Nat.lt_trans hbetween hylt) (by decide))
  have hzfinite : (ofMagnitude false (x.magnitudeBits + 1)).isFinite = true := by
    rw [isFinite_iff, hbits]
    omega
  have hcloser := hx.closest hxfinite _ hzfinite
  rw [magnitude_sub, magnitude_sub, div_left_inj' hpos.ne'] at hdistance
  rw [magnitude_sub, magnitude_sub, hbits, div_le_div_iff_of_pos_right hpos] at hcloser
  exact absurd hcloser (not_le.mpr (closer_between (Nat.lt_succ_self _) hbetween hdistance))

/-- A magnitude is never rounded to the number that is none. -/
theorem IsNearest.isNaN_eq_false {x : Binary64} (h : IsNearest negative q x) :
    x.isNaN = false := by
  rcases lt_or_ge q overflow with hq | hq
  · have hx := h.finite.mpr hq
    rw [isFinite, bne_iff_ne] at hx
    rw [isNaN, beq_false_of_ne hx, Bool.false_and]
  · have hx := h.infinite.mpr hq
    rw [isInfinite, Bool.and_eq_true, beq_iff_eq, beq_iff_eq] at hx
    rw [isNaN, hx.2]
    exact Bool.and_false _

/-- **There is one nearest number.** -/
theorem IsNearest.unique {x y : Binary64} (hx : IsNearest negative q x)
    (hy : IsNearest negative q y) : x = y := by
  refine eq_of_magnitudeBits (hx.sign.trans hy.sign.symm) ?_
  rcases lt_or_ge q overflow with hq | hq
  · exact Nat.le_antisymm (Nat.le_of_not_lt (hy.not_lt hx hq)) (Nat.le_of_not_lt (hx.not_lt hy hq))
  · rw [(isInfinite_iff x).mp (hx.infinite.mpr hq), (isInfinite_iff y).mp (hy.infinite.mpr hq)]

/-! ## Quotients and decimal numbers -/

variable (negative)

/-- **A quotient is rounded to the nearest number.** -/
theorem ofRatio_isNearest (n : Nat) {d : Nat} (hd : 0 < d) :
    IsNearest negative (n / d) (ofRatio negative n d) := by
  have hclosest := ratioBits_isClosest (n * unitsPerOne) hd
  rw [Nat.cast_mul, mul_div_right_comm] at hclosest
  exact hclosest.isNearest

/-- **Below the overflow, what is rounded off is at most half a unit, or one part of `2⁵³`.** -/
theorem ofRatio_near (n : Nat) {d : Nat} (hd : 0 < d) (hlt : (n / d : ℚ) < overflow) :
    |(ofRatio negative n d).magnitude - n / d|
      ≤ max (1 / 2 / unitsPerOne : ℚ) ((n / d : ℚ) / 2 ^ 53) := by
  have hpos := unitsPerOne_pos
  have hclosest := ratioBits_isClosest (n * unitsPerOne) hd
  have hnear := unitsAt_ratioBits_near (n * unitsPerOne) hd
  rw [Nat.cast_mul, mul_div_right_comm] at hclosest hnear
  have hfinite := hclosest.lt_infinityBits_iff.mpr hlt
  have hbits : (ofRatio negative n d).magnitudeBits = ratioBits (n * unitsPerOne) d :=
    (magnitudeBits_ofMagnitude negative (Nat.lt_of_le_of_lt (Nat.min_le_right _ _)
      (by decide))).trans (Nat.min_eq_left hfinite.le)
  rw [magnitude_sub, hbits, div_le_iff₀ hpos, max_mul_of_nonneg _ _ hpos.le,
    div_mul_cancel₀ _ hpos.ne', div_mul_eq_mul_div (_ / _) (2 ^ 53)]
  exact hnear

theorem infinity_isNearest (hq : overflow ≤ q) : IsNearest negative q (infinity negative) := by
  have hbits : (infinity negative).magnitudeBits = infinityBits :=
    magnitudeBits_ofMagnitude negative (by decide)
  have hinfinite : (infinity negative).isInfinite = true := (isInfinite_iff _).mpr hbits
  have hfinite : (infinity negative).isFinite ≠ true := by
    rw [Ne, isFinite_iff]
    exact Nat.lt_irrefl _ ∘ hbits.symm.trans_lt
  exact {
    sign := isNegative_ofMagnitude negative (by decide)
    finite := ⟨fun h => absurd h hfinite, fun h => absurd hq (not_le.mpr h)⟩
    infinite := ⟨fun _ => hq, fun _ => hinfinite⟩
    closest := fun h => absurd h hfinite
    even := fun h => absurd h hfinite }

/-- What is below half of a unit is rounded to zero. -/
theorem zero_isNearest (hq : 0 ≤ q) (hlt : q * unitsPerOne < 1 / 2) :
    IsNearest negative q (ofMagnitude negative 0) := by
  have hclosest : IsClosest (q * unitsPerOne) 0 := by
    have hu : 0 ≤ q * unitsPerOne := mul_nonneg hq unitsPerOne_pos.le
    refine ⟨fun b => ?_, fun _ _ _ => rfl⟩
    have hzero : |(unitsAt 0 : ℚ) - q * unitsPerOne| = q * unitsPerOne := by
      show |((0 : ℕ) : ℚ) - _| = _
      rw [Nat.cast_zero, zero_sub, abs_neg, abs_of_nonneg hu]
    rw [hzero]
    rcases Nat.eq_zero_or_pos (unitsAt b) with h | h
    · rw [h, Nat.cast_zero, zero_sub, abs_neg]
      exact le_abs_self _
    · have hone : (1 : ℚ) ≤ unitsAt b := by exact_mod_cast h
      exact le_trans (by linarith) (le_abs_self _)
  exact hclosest.isNearest

/-- A number lies between the powers of ten that the number of its digits says. -/
theorem width_bounds {digits : Nat} (h : digits ≠ 0) :
    (10 : ℚ) ^ ((Nat.toDigits 10 digits).length - 1 : ℤ) ≤ digits
      ∧ (digits : ℚ) < 10 ^ ((Nat.toDigits 10 digits).length : ℤ) := by
  have hpos : 0 < (Nat.toDigits 10 digits).length := Nat.length_toDigits_pos
  constructor
  · obtain ⟨k, hk⟩ : ∃ k, (Nat.toDigits 10 digits).length = k + 1 :=
      Nat.exists_eq_add_one.mpr hpos
    have hle : 10 ^ k ≤ digits := by
      rcases Nat.eq_zero_or_pos k with rfl | hk'
      · exact Nat.one_le_iff_ne_zero.mpr h
      · refine Nat.le_of_not_lt fun hlt => ?_
        have hlength := (Nat.length_toDigits_le_iff (by decide) hk').mpr hlt
        omega
    rw [hk, Nat.cast_succ, add_sub_cancel_right, zpow_natCast]
    exact_mod_cast hle
  · rw [zpow_natCast]
    exact_mod_cast (Nat.length_toDigits_le_iff (by decide) hpos).mp (Nat.le_refl _)

/-- Beyond `10³¹⁰` every number is infinite. -/
theorem overflow_le : overflow ≤ 10 ^ (310 : ℤ) := by
  have hpower : (2 : ℚ) ^ 1024 ≤ (2 ^ 205) ^ 5 := by
    rw [← pow_mul]
    exact pow_le_pow_right₀ (by norm_num) (by norm_num)
  have hten : ((2 : ℚ) ^ 205) ^ 5 ≤ (10 ^ 62) ^ 5 :=
    pow_le_pow_left₀ (by positivity) (by norm_num) 5
  have hpos : (0 : ℚ) ≤ 2 ^ 970 := by positivity
  calc overflow ≤ 2 ^ 1024 := sub_le_self _ hpos
    _ ≤ (10 ^ 62) ^ 5 := hpower.trans hten
    _ = 10 ^ (310 : ℤ) := by rw [← pow_mul]; rfl

/-- Below `10⁻³³⁰` every number is less than half of a unit. -/
theorem half_unit_le : (10 : ℚ) ^ (-331 : ℤ) * unitsPerOne ≤ 1 / 2 := by
  have hten : ((2 : ℚ) ^ 215) ^ 5 ≤ (10 ^ 65) ^ 5 :=
    pow_le_pow_left₀ (by positivity) (by norm_num) 5
  have hmore : ((10 : ℚ) ^ 65) ^ 5 ≤ 10 ^ 331 := by
    rw [← pow_mul]
    exact pow_le_pow_right₀ (by norm_num) (by norm_num)
  have hunits : (unitsPerOne : ℚ) * 2 = (2 ^ 215) ^ 5 := by
    rw [unitsPerOne_eq, ← pow_mul, Nat.cast_pow, Nat.cast_ofNat, ← pow_succ]
  have hpos : (0 : ℚ) < 10 ^ 331 := by positivity
  have hneg : (10 : ℚ) ^ (-331 : ℤ) = (10 ^ 331)⁻¹ := by
    rw [zpow_neg]
    rfl
  have hle := hunits.le.trans (hten.trans hmore)
  rw [hneg, inv_mul_eq_div, div_le_iff₀ hpos]
  generalize (10 : ℚ) ^ 331 = a at *
  linarith

/-- **A decimal number is rounded to the nearest number.** -/
theorem ofDecimal_isNearest (digits : Nat) (exponent : Int) :
    IsNearest negative (digits * 10 ^ exponent) (ofDecimal negative digits exponent) := by
  have hten (e : Int) : (0 : ℚ) < 10 ^ e := by positivity
  unfold ofDecimal
  by_cases hzero : digits = 0
  · rw [if_pos hzero, hzero, Nat.cast_zero, zero_mul]
    have hhalf : (0 : ℚ) * unitsPerOne < 1 / 2 := by
      rw [zero_mul]
      exact one_half_pos
    exact zero_isNearest negative le_rfl hhalf
  obtain ⟨hlow, hhigh⟩ := width_bounds hzero
  have hlow := mul_le_mul_of_nonneg_right hlow (hten exponent).le
  have hhigh := mul_lt_mul_of_pos_right hhigh (hten exponent)
  rw [← zpow_add₀ (by norm_num)] at hlow hhigh
  simp only [if_neg hzero]
  split
  · next hlarge =>
    refine infinity_isNearest negative (overflow_le.trans (le_trans ?_ hlow))
    exact zpow_le_zpow_right₀ (by norm_num) (by omega)
  · split
    · next hsmall =>
      have hpower : (10 : ℚ) ^ ((Nat.toDigits 10 digits).length + exponent : ℤ) ≤ 10 ^ (-331 : ℤ) :=
        zpow_le_zpow_right₀ (by norm_num) (by omega)
      refine zero_isNearest negative (by positivity) ?_
      exact lt_of_lt_of_le (mul_lt_mul_of_pos_right (hhigh.trans_le hpower) unitsPerOne_pos)
        half_unit_le
    · split
      · next hexponent =>
        have hratio := ofRatio_isNearest negative (digits * Nat.pow 10 exponent.toNat) Nat.one_pos
        have hcast : (10 : ℚ) ^ exponent = (10 : ℚ) ^ exponent.toNat := by
          rw [← zpow_natCast, Int.toNat_of_nonneg hexponent]
        rw [hcast]
        simpa using hratio
      · next hexponent =>
        have hpos : 0 < Nat.pow 10 (-exponent).toNat := Nat.pow_pos (by decide)
        have hratio := ofRatio_isNearest negative digits hpos
        have hcast : (10 : ℚ) ^ exponent = ((10 : ℚ) ^ (-exponent).toNat)⁻¹ := by
          rw [← zpow_natCast, Int.toNat_of_nonneg (by omega), zpow_neg, inv_inv]
        rw [hcast, ← div_eq_mul_inv]
        simpa using hratio

end Nearest

end Deeplink.Binary64
