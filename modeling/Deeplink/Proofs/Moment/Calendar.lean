import Deeplink.Moment
import Mathlib.Algebra.GroupWithZero.Nat
import Mathlib.Order.Monotone.Basic

/-!
# The calendar

Days are counted by adding up years and months. `civilDate` goes the other way, by taking off whole
cycles; here it is shown to be the inverse.

- `Calendar.daysThrough`: the days of the years up to one.
- `Calendar.daysThrough_eq`: how they can be calculated.
- `Calendar.IsDate`, `Calendar.dayNumber`: the dates of the proleptic Gregorian calendar, and the
  days before a date.
- `Calendar.civilDate_spec`: the date that `civilDate` gives for a day is the one with so many days
  before it.
- `Calendar.le_iff_of_blocks`: places in blocks that follow each other are ordered by the block, and
  then by the place in it.
- `Calendar.dayNumber_le_iff`: so are dates by year, month and day.
-/

namespace Deeplink.Calendar

/-! ## Blocks -/

section Blocks

variable {start length : Nat → Nat}
  (hblocks : ∀ ⦃k k'⦄, k < k' → start k + length k ≤ start k')

include hblocks

/-- Of two places in blocks, that in the earlier block is the earlier one. -/
theorem lt_of_blocks {k k' i i' : Nat} (hk : k < k') (hi : i < length k) :
    start k + i < start k' + i' := by
  have := hblocks hk
  omega

/-- Days are counted block by block: first the block decides, then the place in it. -/
theorem le_iff_of_blocks {k k' i i' : Nat} (hi : i < length k) (hi' : i' < length k') :
    start k + i ≤ start k' + i' ↔ k < k' ∨ k = k' ∧ i ≤ i' := by
  rcases Nat.lt_trichotomy k k' with hk | rfl | hk
  · have hlt : start k + i < start k' + i' := lt_of_blocks hblocks hk hi
    omega
  · omega
  · have hlt : start k' + i' < start k + i := lt_of_blocks hblocks hk hi'
    omega

end Blocks

/-- Numbers with a last digit are ordered by what is before it, and then by the digit. -/
theorem le_iff_of_digit {base a a' d d' : Nat} (hd : d < base) (hd' : d' < base) :
    a * base + d ≤ a' * base + d' ↔ a < a' ∨ a = a' ∧ d ≤ d' := by
  have hblocks : ∀ ⦃k k' : Nat⦄, k < k' → k * base + base ≤ k' * base := by
    intro k k' hk
    rw [← Nat.succ_mul]
    exact Nat.mul_le_mul_right base hk
  exact @le_iff_of_blocks (fun a => a * base) (fun _ => base) hblocks a a' d d' hd hd'

/-! ## Years -/

def yearLength (year : Nat) : Nat := if isLeapYear year then 366 else 365

/-- The days of the years up to one, from year one on. -/
def daysThrough : Nat → Nat
  | 0 => 0
  | year + 1 => daysThrough year + yearLength (year + 1)

/-- Every fourth year is a leap year, but only every fourth one that ends a century. -/
theorem isLeapYear_iff (year : Nat) :
    isLeapYear year = true ↔ year % 4 = 0 ∧ (year % 100 ≠ 0 ∨ year % 400 = 0) := by
  simp only [isLeapYear, Bool.and_eq_true, Bool.or_eq_true, decide_eq_true_eq]
  omega

theorem yearLength_eq (year : Nat) : yearLength year
    = if year % 4 = 0 ∧ (year % 100 ≠ 0 ∨ year % 400 = 0) then 366 else 365 := by
  simp only [yearLength, isLeapYear_iff]

/-- **There is one more day in every fourth year**, but for the full centuries that are not full
cycles. -/
theorem daysThrough_eq (year : Nat) :
    daysThrough year + year / 100 = 365 * year + year / 4 + year / 400 := by
  induction year with
  | zero => rfl
  | succ year ih =>
    have hdiv (k : Nat) : (year + 1) / k = year / k + if (year + 1) % k = 0 then 1 else 0 := by
      rw [Nat.succ_div]
      simp only [Nat.dvd_iff_mod_eq_zero]
    have h100 : (year + 1) % 400 = 0 → (year + 1) % 100 = 0 := by omega
    have h4 : (year + 1) % 100 = 0 → (year + 1) % 4 = 0 := by omega
    rw [daysThrough, yearLength_eq, hdiv 100, hdiv 4, hdiv 400]
    by_cases hfour : (year + 1) % 4 = 0
    · by_cases hcentury : (year + 1) % 100 = 0
      · by_cases hcycle : (year + 1) % 400 = 0
        · rw [if_pos ⟨hfour, .inr hcycle⟩, if_pos hcentury, if_pos hfour, if_pos hcycle]
          omega
        · rw [if_neg fun h => h.2.elim (· hcentury) hcycle, if_pos hcentury, if_pos hfour,
            if_neg hcycle]
          omega
      · rw [if_pos ⟨hfour, .inl hcentury⟩, if_neg hcentury, if_pos hfour,
          if_neg fun h => hcentury (h100 h)]
        omega
    · rw [if_neg fun h => hfour h.1, if_neg fun h => hfour (h4 h), if_neg hfour,
        if_neg fun h => hfour (h4 (h100 h))]
      omega

theorem daysThrough_mono : Monotone daysThrough :=
  monotone_nat_of_le_succ fun _ => Nat.le_add_right _ _

/-! ## Months -/

/-- The days of the months before one of so many lengths. -/
def daysBefore (lengths : List Nat) (month : Nat) : Nat := (lengths.take (month - 1)).sum

/-- Taking off whole months leaves the month and the day in it. -/
theorem takeMonths_spec {lengths : List Nat} {days : Nat} (h : days < lengths.sum) :
    (takeMonths lengths days).1 < lengths.length
      ∧ (takeMonths lengths days).2 < lengths.getD (takeMonths lengths days).1 0
      ∧ (lengths.take (takeMonths lengths days).1).sum + (takeMonths lengths days).2 = days := by
  induction lengths generalizing days with
  | nil => cases h
  | cons length rest ih =>
    rw [List.sum_cons] at h
    by_cases hdays : days < length
    · simp only [takeMonths, if_pos hdays]
      exact ⟨Nat.succ_pos _, hdays, Nat.zero_add days⟩
    · have hleft : days - length < rest.sum := by omega
      obtain ⟨hmonth, hday, hsum⟩ := ih hleft
      simp only [takeMonths, if_neg hdays]
      refine ⟨Nat.succ_lt_succ hmonth, hday, ?_⟩
      rw [List.take_succ_cons, List.sum_cons]
      omega

theorem sum_take_succ (lengths : List Nat) (k : Nat) :
    (lengths.take (k + 1)).sum = (lengths.take k).sum + lengths.getD k 0 := by
  induction lengths generalizing k with
  | nil => simp
  | cons length rest ih =>
    cases k with
    | zero => simp
    | succ k =>
      rw [List.take_succ_cons, List.sum_cons, ih, List.take_succ_cons, List.sum_cons,
        List.getD_cons_succ]
      omega

theorem sum_take_mono (lengths : List Nat) : Monotone fun k => (lengths.take k).sum := by
  refine monotone_nat_of_le_succ fun k => ?_
  rw [sum_take_succ]
  exact Nat.le_add_right _ _

/-- Months follow each other. -/
theorem month_blocks (lengths : List Nat) ⦃k k' : Nat⦄ (h : k < k') :
    (lengths.take k).sum + lengths.getD k 0 ≤ (lengths.take k').sum := by
  rw [← sum_take_succ]
  exact sum_take_mono lengths h

/-- The months make up the year. -/
theorem sum_monthLengths (year : Nat) : (monthLengths (isLeapYear year)).sum = yearLength year := by
  rw [yearLength]
  cases isLeapYear year <;> rfl

/-! ## Dates -/

/-- A date of the proleptic Gregorian calendar. -/
structure IsDate (year month day : Nat) : Prop where
  year_pos : 1 ≤ year
  month_pos : 1 ≤ month
  month_le : month ≤ 12
  day_pos : 1 ≤ day
  day_le : day ≤ (monthLengths (isLeapYear year)).getD (month - 1) 0

/-- No month is longer. -/
theorem IsDate.day_le_31 {year month day : Nat} (h : IsDate year month day) : day ≤ 31 := by
  have hall : ∀ (leap : Bool) (k : Fin 12), (monthLengths leap).getD k 0 ≤ 31 := by decide
  have hmonth : month - 1 < 12 := by
    have := h.month_pos
    have := h.month_le
    omega
  exact h.day_le.trans (hall _ ⟨month - 1, hmonth⟩)

/-- The days before a date, from the first of January of year one on. -/
def dayNumber (year month day : Nat) : Nat :=
  daysThrough (year - 1) + (daysBefore (monthLengths (isLeapYear year)) month + (day - 1))

/-- The full years before a day, and the days in its year before it, as they come of whole cycles,
centuries, groups of four years and years. -/
def yearsAndDays (n : Nat) : Nat × Nat :=
  let inCycle := n % daysPerCycle
  let centuries := min (inCycle / 36524) 3
  let inCentury := inCycle - centuries * 36524
  let groups := inCentury / 1461
  let inGroup := inCentury - groups * 1461
  let years := min (inGroup / 365) 3
  (n / daysPerCycle * 400 + (centuries * 100 + groups * 4 + years), inGroup - years * 365)

theorem civilDate_natCast (n : Nat) : civilDate n
    = ((((yearsAndDays n).1 + 1 : Nat) : Int),
      (takeMonths (monthLengths (isLeapYear ((yearsAndDays n).1 + 1 : Nat)))
        (yearsAndDays n).2).1 + 1,
      (takeMonths (monthLengths (isLeapYear ((yearsAndDays n).1 + 1 : Nat)))
        (yearsAndDays n).2).2 + 1) := by
  have hrest : ((n : Int) % (daysPerCycle : Nat)).toNat = n % daysPerCycle := by omega
  have hyear (m : Nat) : (n : Int) / (daysPerCycle : Nat) * 400 + (m + 1 : Nat)
      = (n / daysPerCycle * 400 + m + 1 : Nat) := by omega
  simp only [civilDate, hrest, hyear]
  rfl

section Parts

variable {cycles centuries groups years : Nat} (hcenturies : centuries ≤ 3) (hgroups : groups ≤ 24)
  (hyears : years ≤ 3)

include hcenturies hgroups hyears

theorem daysThrough_parts :
    daysThrough (cycles * 400 + (centuries * 100 + groups * 4 + years))
      = cycles * 146097 + centuries * 36524 + groups * 1461 + years * 365 := by
  have := daysThrough_eq (cycles * 400 + (centuries * 100 + groups * 4 + years))
  omega

/-- The last year of a group has one day more, unless it is the last one of a century; but it has if
that is the last one of a cycle. -/
theorem yearLength_parts :
    yearLength (cycles * 400 + (centuries * 100 + groups * 4 + years) + 1)
      = if years = 3 ∧ (groups ≠ 24 ∨ centuries = 3) then 366 else 365 := by
  rw [yearLength_eq]
  congr 1
  refine propext ?_
  omega

end Parts

/-- **A day is found in its year**: so many days are in the years before, and the rest is less than
a year. -/
theorem yearsAndDays_spec (n : Nat) :
    daysThrough (yearsAndDays n).1 + (yearsAndDays n).2 = n
      ∧ (yearsAndDays n).2 < yearLength ((yearsAndDays n).1 + 1) := by
  have hparts := Nat.div_add_mod n daysPerCycle
  have hinCycle : n % daysPerCycle < daysPerCycle := Nat.mod_lt n (by decide)
  simp only [yearsAndDays]
  generalize n / daysPerCycle = cycles at *
  generalize n % daysPerCycle = inCycle at *
  simp only [daysPerCycle] at hparts hinCycle
  -- what is left after each step, and how much there can be of the next
  obtain ⟨centuries, hcenturies⟩ : ∃ k, k = min (inCycle / 36524) 3 := ⟨_, rfl⟩
  obtain ⟨inCentury, hinCentury⟩ : ∃ k, k = inCycle - centuries * 36524 := ⟨_, rfl⟩
  obtain ⟨groups, hgroups⟩ : ∃ k, k = inCentury / 1461 := ⟨_, rfl⟩
  obtain ⟨inGroup, hinGroup⟩ : ∃ k, k = inCentury - groups * 1461 := ⟨_, rfl⟩
  obtain ⟨years, hyears⟩ : ∃ k, k = min (inGroup / 365) 3 := ⟨_, rfl⟩
  rw [← hcenturies, ← hinCentury, ← hgroups, ← hinGroup, ← hyears]
  have hcentury : inCentury < 36524 ∨ centuries = 3 ∧ inCentury = 36524 := by omega
  have hgroup : inGroup < 1461 ∧ groups ≤ 24 := by omega
  rw [daysThrough_parts (by omega) hgroup.2 (by omega),
    yearLength_parts (by omega) hgroup.2 (by omega)]
  split
  · omega
  · omega

/-- **The date of a day is the one that has so many days before it.** -/
theorem civilDate_spec (n : Nat) : ∃ year month day : Nat, civilDate n = ((year : Int), month, day)
    ∧ IsDate year month day ∧ dayNumber year month day = n := by
  have hcivil := civilDate_natCast n
  obtain ⟨hnumber, hday⟩ := yearsAndDays_spec n
  generalize yearsAndDays n = parts at hcivil hnumber hday
  obtain ⟨years, rest⟩ := parts
  rw [← sum_monthLengths] at hday
  obtain ⟨hmonth, hlength, hsum⟩ := takeMonths_spec hday
  generalize takeMonths (monthLengths (isLeapYear (years + 1 : Nat))) rest = place
    at hcivil hmonth hlength hsum
  obtain ⟨month, day⟩ := place
  refine ⟨years + 1, month + 1, day + 1, hcivil, ?_, ?_⟩
  · exact {
      year_pos := Nat.succ_pos years
      month_pos := Nat.succ_pos month
      month_le := hmonth
      day_pos := Nat.succ_pos day
      day_le := hlength }
  · rw [dayNumber, daysBefore, Nat.add_sub_cancel, Nat.add_sub_cancel, Nat.add_sub_cancel, hsum,
      hnumber]

section Order

variable {year year' month month' day day' : Nat} (h : IsDate year month day)
  (h' : IsDate year' month' day')

/-- A date lies in its year. -/
theorem IsDate.lt_yearLength (h : IsDate year month day) :
    daysBefore (monthLengths (isLeapYear year)) month + (day - 1) < yearLength year := by
  have hmonth : month - 1 < 12 := by
    have := h.month_le
    have := h.month_pos
    omega
  have hblock := month_blocks (monthLengths (isLeapYear year)) hmonth
  have hall : (monthLengths (isLeapYear year)).take 12 = monthLengths (isLeapYear year) := rfl
  rw [hall, sum_monthLengths] at hblock
  have hpos := h.day_pos
  have hday := h.day_le
  rw [daysBefore]
  omega

include h h'

/-- Dates of one year are ordered by month and day. -/
theorem dayOfYear_le_iff (hyear : year = year') :
    daysBefore (monthLengths (isLeapYear year)) month + (day - 1)
        ≤ daysBefore (monthLengths (isLeapYear year')) month' + (day' - 1)
      ↔ month < month' ∨ month = month' ∧ day ≤ day' := by
  subst hyear
  have hday : day - 1 < (monthLengths (isLeapYear year)).getD (month - 1) 0 := by
    have := h.day_pos
    have := h.day_le
    omega
  have hday' : day' - 1 < (monthLengths (isLeapYear year)).getD (month' - 1) 0 := by
    have := h'.day_pos
    have := h'.day_le
    omega
  rw [daysBefore, daysBefore,
    le_iff_of_blocks (month_blocks (monthLengths (isLeapYear year))) hday hday']
  have := h.month_pos
  have := h'.month_pos
  have := h.day_pos
  have := h'.day_pos
  omega

/-- **Dates are ordered by year, month and day.** -/
theorem dayNumber_le_iff : dayNumber year month day ≤ dayNumber year' month' day'
    ↔ year < year' ∨ year = year' ∧ (month < month' ∨ month = month' ∧ day ≤ day') := by
  have hblocks : ∀ ⦃k k'⦄, k < k' → daysThrough k + yearLength (k + 1) ≤ daysThrough k' :=
    fun k k' hk => daysThrough_mono hk
  have hyear : year - 1 + 1 = year := Nat.sub_add_cancel h.year_pos
  have hyear' : year' - 1 + 1 = year' := Nat.sub_add_cancel h'.year_pos
  have hplace := h.lt_yearLength.trans_eq (congrArg yearLength hyear.symm)
  have hplace' := h'.lt_yearLength.trans_eq (congrArg yearLength hyear'.symm)
  rw [dayNumber, dayNumber, le_iff_of_blocks hblocks hplace hplace']
  constructor
  · rintro (hlt | ⟨heq, hle⟩)
    · exact .inl (by omega)
    · have hsame : year = year' := by omega
      exact .inr ⟨hsame, (dayOfYear_le_iff h h' hsame).mp hle⟩
  · rintro (hlt | ⟨hsame, hle⟩)
    · exact .inl (by omega)
    · exact .inr ⟨by omega, (dayOfYear_le_iff h h' hsame).mpr hle⟩

/-- Days follow each other as their dates do. -/
theorem dayNumber_lt_iff : dayNumber year month day < dayNumber year' month' day'
    ↔ year < year' ∨ year = year' ∧ (month < month' ∨ month = month' ∧ day < day') := by
  rw [← Nat.not_le, dayNumber_le_iff h' h]
  omega

/-- No two dates are one day. -/
theorem dayNumber_inj : dayNumber year month day = dayNumber year' month' day'
    ↔ year = year' ∧ month = month' ∧ day = day' := by
  rw [Nat.eq_iff_le_and_ge, dayNumber_le_iff h h', dayNumber_le_iff h' h]
  omega

end Order

end Deeplink.Calendar
