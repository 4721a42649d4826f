import Deeplink.Proofs.Json.Magnitudes
import Deeplink.Proofs.Moment.Timestamp

/-!
# Moments of seconds

- `Moment.microseconds_near`: the microseconds of a number of seconds are the nearest ones, but for
  what is lost when the fraction is scaled.
- `Moment.ofSeconds_eq`, `Moment.ofWholeSeconds_eq`: clocks can count all seconds of the calendar.
-/

namespace Deeplink

namespace Binary64

/-- Truncation drops what is behind the point, on both sides of zero. -/
theorem truncated_eq (x : Binary64) : x.truncated
    = if x.isNegative then -((x.units / unitsPerOne : Nat) : Int)
      else ((x.units / unitsPerOne : Nat) : Int) := by
  rw [truncated, scaled]
  generalize unitsPerOne = d
  split
  · rw [Int.neg_tdiv]
    rfl
  · rfl

/-- The number of microseconds in a second does not overflow. -/
theorem million_lt_overflow : (1000000 : ℚ) < overflow := by
  have hpower : (2 : ℚ) ^ 1024 = 2 ^ 970 * 2 ^ 54 := by rw [← pow_add]
  have hone : (1 : ℚ) ≤ 2 ^ 970 := one_le_pow₀ (by norm_num)
  rw [overflow, hpower]
  generalize (2 : ℚ) ^ 970 = a at hone ⊢
  norm_num
  linarith

/-- Half a unit in the last place is far below a microsecond. -/
theorem half_unit_small : (1 / 2 / unitsPerOne : ℚ) ≤ 1 / 2 ^ 33 := by
  have hunits : (2 : ℚ) ^ 33 ≤ unitsPerOne := by
    rw [unitsPerOne_eq, Nat.cast_pow, Nat.cast_ofNat]
    exact pow_le_pow_right₀ (by norm_num) (by norm_num)
  have hpos := unitsPerOne_pos
  rw [div_div, div_le_div_iff₀ (by positivity) (by positivity)]
  linarith

end Binary64

namespace Moment

open Binary64

/-! ## Rounding -/

/-- The microseconds of a magnitude. -/
def microsecondsOf (units : Nat) : Nat :=
  units / unitsPerOne * 1000000
    + nearest (ofRatio false (units % unitsPerOne * 1000000) unitsPerOne).units unitsPerOne

/-- Microseconds are counted from zero in both directions. -/
theorem microseconds_eq (x : Binary64) : microseconds x
    = if x.isNegative then -(microsecondsOf x.units : Int) else microsecondsOf x.units := by
  simp only [microseconds, truncated_eq, microsecondsOf]
  split
  · omega
  · omega

/-- Rounding happens twice, once for the product and once for the whole microsecond. -/
theorem microsecondsOf_near (x : Binary64) :
    |(microsecondsOf x.units : ℚ) - x.magnitude * 1000000| ≤ 1 / 2 + 1 / 2 ^ 33 := by
  obtain ⟨whole, hwhole⟩ : ∃ k, k = x.units / unitsPerOne := ⟨_, rfl⟩
  obtain ⟨fraction, hfraction⟩ : ∃ k, k = x.units % unitsPerOne := ⟨_, rfl⟩
  have hpos := unitsPerOne_pos
  have hunits : 0 < unitsPerOne := Nat.cast_pos.mp hpos
  have hrest : (fraction : ℚ) < unitsPerOne := by
    rw [hfraction]
    exact Nat.cast_lt.mpr (Nat.mod_lt _ hunits)
  have hparts : x.magnitude * 1000000
      = whole * 1000000 + (fraction * 1000000 : Nat) / unitsPerOne := by
    have hsum : (x.units : ℚ) = unitsPerOne * whole + fraction := by
      rw [hwhole, hfraction]
      exact_mod_cast (Nat.div_add_mod _ _).symm
    rw [magnitude, hsum, add_div, mul_div_cancel_left₀ _ hpos.ne', add_mul, div_mul_eq_mul_div,
      Nat.cast_mul, Nat.cast_ofNat]
  have hlt : ((fraction * 1000000 : Nat) : ℚ) / unitsPerOne < 1000000 := by
    rw [div_lt_iff₀ hpos, Nat.cast_mul, Nat.cast_ofNat]
    linarith
  obtain ⟨y, hy⟩ : ∃ y, y = ofRatio false (fraction * 1000000) unitsPerOne := ⟨_, rfl⟩
  have hlost : |y.magnitude - (fraction * 1000000 : Nat) / unitsPerOne| ≤ 1 / 2 ^ 33 := by
    rw [hy]
    refine (ofRatio_near false _ hunits (hlt.trans million_lt_overflow)).trans (max_le ?_ ?_)
    · exact half_unit_small
    · rw [div_le_iff₀ (by positivity)]
      refine hlt.le.trans ?_
      norm_num
  have hhalf : |(nearest y.units unitsPerOne : ℚ) - y.magnitude| ≤ 1 / 2 :=
    (nearest_half y.units hunits).1
  rw [microsecondsOf, hparts, ← hwhole, ← hfraction, ← hy, Nat.cast_add, Nat.cast_mul,
    Nat.cast_ofNat, add_sub_add_left_eq_sub]
  exact (abs_sub_le _ _ _).trans (add_le_add hhalf hlost)

/-- **The microseconds of a number of seconds** are the nearest ones, but for what is lost when the
fraction is scaled. -/
theorem microseconds_near (x : Binary64) :
    |(microseconds x : ℚ) - x.value * 1000000| ≤ 1 / 2 + 1 / 2 ^ 33 := by
  rw [microseconds_eq, value]
  split
  · rw [Int.cast_neg, Int.cast_natCast, neg_mul, ← neg_sub', abs_neg]
    exact microsecondsOf_near x
  · rw [Int.cast_natCast]
    exact microsecondsOf_near x

/-! ## Clocks -/

/-- Clocks can count all seconds of the calendar. -/
theorem clockFits_of_inCalendar {seconds u : Int} (hu : InCalendar u)
    (h : seconds.natAbs * 1000000 ≤ u.natAbs) : clockFits seconds = true := by
  obtain ⟨hstart, hfinish⟩ := inCalendar_iff.mp hu
  simp only [clockFits, Bool.and_eq_true, decide_eq_true_eq, Nat.pow_eq]
  omega

/-- Within the calendar, seconds give the moment of their microseconds. -/
theorem ofSeconds_eq {x : Binary64} (hfinite : x.isFinite = true)
    (hu : InCalendar (microseconds x)) : ofSeconds x = ofMicroseconds (microseconds x) := by
  rw [isFinite_eq, Bool.and_eq_true, Bool.not_eq_true', Bool.not_eq_true'] at hfinite
  have hseconds : x.truncated.natAbs * 1000000 ≤ (microseconds x).natAbs := by
    rw [truncated_eq, microseconds_eq, microsecondsOf]
    split <;> omega
  rw [ofSeconds, hfinite.1, hfinite.2, clockFits_of_inCalendar hu hseconds]
  rfl

/-- Whole seconds are exact. -/
theorem ofWholeSeconds_eq {n : Int} (hu : InCalendar (n * 1000000)) :
    ofWholeSeconds n = ofMicroseconds (n * 1000000) := by
  rw [ofWholeSeconds, if_pos (clockFits_of_inCalendar hu (by omega))]

end Moment

end Deeplink
