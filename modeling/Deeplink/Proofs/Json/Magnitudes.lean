import Deeplink.Json
import Deeplink.Proofs.Binary64.Rounding

/-!
# Equality of numbers

Integers, floating-point numbers and booleans are compared by their values, which are rational
numbers.

- `Binary64.value`: the value of a finite number.
- `Json.IsNumber`, `Json.IsInfinity`: the number that a value is, and an infinite one.
- `Json.magnitude?_eq_finite_iff`: what is counted is the number, in units.
- `Json.sameNumber_iff`: the comparison is exact, whatever the kinds.
-/

namespace Deeplink

namespace Binary64

/-- The value of a finite number. -/
def value (x : Binary64) : ℚ := if x.isNegative then -x.magnitude else x.magnitude

/-- Numbers are compared as multiples of the smallest unit, which is exact. -/
theorem scaled_eq (x : Binary64) : (x.scaled : ℚ) = x.value * unitsPerOne := by
  have hmagnitude : (x.units : ℚ) = x.magnitude * unitsPerOne := by
    rw [magnitude, div_mul_cancel₀ _ unitsPerOne_pos.ne']
  rw [scaled, value]
  by_cases hsign : x.isNegative = true
  · rw [if_pos hsign, if_pos hsign, neg_mul, ← hmagnitude]
    push_cast
    rfl
  · rw [if_neg hsign, if_neg hsign, ← hmagnitude]
    push_cast
    rfl

/-- A number that is neither infinite nor none is finite. -/
theorem isFinite_eq (x : Binary64) : x.isFinite = (!x.isNaN && !x.isInfinite) := by
  rw [isFinite, isNaN, isInfinite, bne, bne]
  cases x.exponent == 2047 with
  | false => rfl
  | true => cases x.fraction == 0 <;> rfl

/-- An infinite number is one. -/
theorem isNaN_of_isInfinite {x : Binary64} (h : x.isInfinite = true) : x.isNaN = false := by
  rw [isInfinite, Bool.and_eq_true, beq_iff_eq, beq_iff_eq] at h
  rw [isNaN, h.2]
  exact Bool.and_false _

end Binary64

namespace Json

/-- The number that a value is. Booleans are one and zero. -/
inductive IsNumber : Json → ℚ → Prop where
  | bool (b : Bool) : IsNumber (.bool b) (if b then 1 else 0)
  | int (n : Int) : IsNumber (.int n) n
  | float {x : Binary64} (h : x.isFinite = true) : IsNumber (.float x) x.value

/-- An infinite number. -/
inductive IsInfinity (negative : Bool) : Json → Prop where
  | float {x : Binary64} (h : x.isInfinite = true) (hsign : x.isNegative = negative) :
      IsInfinity negative (.float x)

variable {v w : Json} {q : ℚ} {negative : Bool}

theorem isNumber_float_iff {x : Binary64} :
    IsNumber (.float x) q ↔ x.isFinite = true ∧ x.value = q := by
  constructor
  · intro h
    cases h with
    | float h => exact ⟨h, rfl⟩
  · rintro ⟨h, rfl⟩
    exact .float h

theorem isNumber_bool_iff {b : Bool} : IsNumber (.bool b) q ↔ (if b then 1 else 0) = q := by
  constructor
  · rintro ⟨⟩
    rfl
  · rintro rfl
    exact .bool b

/-- The magnitude of a finite number is how often it holds the smallest unit. -/
theorem magnitudeOf?_eq_finite_iff {x : Binary64} {n : Int} :
    magnitudeOf? x = some (.finite n) ↔ x.isFinite = true ∧ x.scaled = n := by
  rw [magnitudeOf?, x.isFinite_eq]
  cases x.isNaN with
  | true => simp
  | false => cases x.isInfinite <;> simp

/-- The magnitude of an infinite number is its sign. -/
theorem magnitudeOf?_eq_infinite_iff {x : Binary64} :
    magnitudeOf? x = some (.infinite negative)
      ↔ x.isInfinite = true ∧ x.isNegative = negative := by
  rw [magnitudeOf?]
  by_cases hx : x.isInfinite = true
  · simp [hx, Binary64.isNaN_of_isInfinite hx]
  · simp [hx]

theorem units_bool (b : Bool) : ((if b then Binary64.unitsPerOne else 0 : Int) : ℚ)
    = (if b then 1 else 0) * Binary64.unitsPerOne := by
  cases b with
  | true =>
    rw [if_pos rfl, if_pos rfl, one_mul]
    exact Int.cast_natCast _
  | false =>
    rw [if_neg Bool.false_ne_true, if_neg Bool.false_ne_true, zero_mul]
    exact Int.cast_zero

/-- **What is counted is the number**, in units. -/
theorem magnitude?_eq_finite_iff {n : Int} : v.magnitude? = some (.finite n)
    ↔ ∃ q, IsNumber v q ∧ (n : ℚ) = q * Binary64.unitsPerOne := by
  constructor
  · intro h
    cases v with
    | bool b =>
      refine ⟨_, .bool b, ?_⟩
      obtain rfl := Magnitude.finite.inj (Option.some.inj h)
      exact units_bool b
    | int k =>
      refine ⟨_, .int k, ?_⟩
      obtain rfl := Magnitude.finite.inj (Option.some.inj h)
      push_cast
      rfl
    | float x =>
      obtain ⟨hx, rfl⟩ := magnitudeOf?_eq_finite_iff.mp h
      exact ⟨_, .float hx, x.scaled_eq⟩
    | _ => cases h
  · rintro ⟨q, hq, hn⟩
    cases hq with
    | bool b =>
      rw [magnitude?]
      refine congrArg (some ∘ Magnitude.finite) (Int.cast_injective (α := ℚ) ?_)
      rw [hn, units_bool]
    | int k =>
      rw [magnitude?]
      refine congrArg (some ∘ Magnitude.finite) (Int.cast_injective (α := ℚ) ?_)
      rw [hn]
      push_cast
      rfl
    | @float x hx =>
      refine magnitudeOf?_eq_finite_iff.mpr ⟨hx, Int.cast_injective (α := ℚ) ?_⟩
      rw [hn, x.scaled_eq]

/-- A value is infinite by its magnitude exactly if it is an infinity. -/
theorem magnitude?_eq_infinite_iff :
    v.magnitude? = some (.infinite negative) ↔ IsInfinity negative v := by
  constructor
  · intro h
    cases v with
    | float x =>
      obtain ⟨hx, hsign⟩ := magnitudeOf?_eq_infinite_iff.mp h
      exact .float hx hsign
    | _ => cases h
  · rintro ⟨hx, hsign⟩
    exact magnitudeOf?_eq_infinite_iff.mpr ⟨hx, hsign⟩

/-- A value is at most one number. -/
theorem IsNumber.unique {q' : ℚ} (h : IsNumber v q) (h' : IsNumber v q') : q = q' := by
  cases h <;> cases h' <;> rfl

/-- A value that is a number is no infinity. -/
theorem IsNumber.not_isInfinity (h : IsNumber v q) : ¬ IsInfinity negative v := by
  intro hinfinity
  cases h with
  | @float x hfinite =>
    cases hinfinity with
    | float hinfinite _ =>
      rw [x.isFinite_eq, hinfinite, Bool.not_true, Bool.and_false] at hfinite
      cases hfinite
  | _ => cases hinfinity

/-- What a number is worth is a whole number of units. -/
theorem IsNumber.exists_units (h : IsNumber v q) :
    ∃ n : Int, (n : ℚ) = q * Binary64.unitsPerOne := by
  cases h with
  | bool b => exact ⟨_, units_bool b⟩
  | int n =>
    refine ⟨n * Binary64.unitsPerOne, ?_⟩
    push_cast
    rfl
  | @float x _ => exact ⟨x.scaled, x.scaled_eq⟩

theorem IsInfinity.unique {negative' : Bool} (h : IsInfinity negative v)
    (h' : IsInfinity negative' v) : negative = negative' := by
  obtain ⟨-, hsign⟩ := h
  cases h' with
  | float _ hsign' => exact hsign.symm.trans hsign'

/-- **Numbers are compared exactly**, whatever their kinds. -/
theorem sameNumber_iff : sameNumber v w = true ↔ (∃ q, IsNumber v q ∧ IsNumber w q)
    ∨ ∃ negative, IsInfinity negative v ∧ IsInfinity negative w := by
  have hsame : sameNumber v w = true ↔ ∃ m, v.magnitude? = some m ∧ w.magnitude? = some m := by
    rw [sameNumber]
    cases v.magnitude? with
    | none => simp
    | some m =>
      cases w.magnitude? with
      | none => simp
      | some n => simp [eq_comm]
  rw [hsame]
  constructor
  · rintro ⟨m, hv, hw⟩
    cases m with
    | finite n =>
      obtain ⟨q, hq, hn⟩ := magnitude?_eq_finite_iff.mp hv
      obtain ⟨q', hq', hn'⟩ := magnitude?_eq_finite_iff.mp hw
      obtain rfl := mul_right_cancel₀ Binary64.unitsPerOne_pos.ne' (hn.symm.trans hn')
      exact .inl ⟨q, hq, hq'⟩
    | infinite negative =>
      exact .inr ⟨negative, magnitude?_eq_infinite_iff.mp hv, magnitude?_eq_infinite_iff.mp hw⟩
  · rintro (⟨q, hv, hw⟩ | ⟨negative, hv, hw⟩)
    · obtain ⟨n, hn⟩ := hv.exists_units
      exact ⟨_, magnitude?_eq_finite_iff.mpr ⟨q, hv, hn⟩,
        magnitude?_eq_finite_iff.mpr ⟨q, hw, hn⟩⟩
    · exact ⟨_, magnitude?_eq_infinite_iff.mpr hv, magnitude?_eq_infinite_iff.mpr hw⟩

end Json

end Deeplink
