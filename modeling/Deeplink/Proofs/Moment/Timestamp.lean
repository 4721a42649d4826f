import Deeplink.Proofs.Json.NumberText
import Deeplink.Proofs.Moment.Calendar

/-!
# Texts of moments

The text of a moment in UTC says when it is, and texts are ordered as the moments are.

- `Moment.IsUtc`, `Moment.instant`: moments in UTC of the years 1 to 9999, and the microseconds from
  the start of 1970 to one.
- `Moment.ofMicroseconds_spec`: each instant of these years has its moment.
- `Moment.ofText?`, `Moment.instantOf?`: reading a text; a missing fraction means no microseconds.
- `Moment.instantOf?_text`: the text of a moment is read as its instant.
- `Moment.precedes_text_iff`: the order of texts is that of instants, although only some of them
  have a fraction.
-/

namespace Deeplink

/-! ## The order of texts -/

namespace Text

theorem precedes_cons_iff {a b : CodePoint} {s t : Text} : precedes (a :: s) (b :: t) = true
    ↔ a.toNat < b.toNat ∨ a.toNat = b.toNat ∧ precedes s t = true := by
  rw [precedes]
  rcases Nat.lt_trichotomy a.toNat b.toNat with h | h | h
  · rw [if_pos h]
    exact ⟨fun _ => .inl h, fun _ => rfl⟩
  · rw [if_neg h.not_lt, if_neg h.not_gt]
    constructor
    · exact fun hrest => .inr ⟨h, hrest⟩
    · rintro (hlt | ⟨-, hrest⟩)
      · exact absurd h hlt.ne
      · exact hrest
  · rw [if_neg h.not_gt, if_pos h]
    constructor
    · nofun
    · rintro (hlt | ⟨heq, -⟩)
      · exact absurd h hlt.not_gt
      · exact absurd heq h.ne'

/-- What texts have in common in front makes no difference. -/
theorem precedes_append_left (front s t : Text) :
    precedes (front ++ s) (front ++ t) = precedes s t := by
  induction front with
  | nil => rfl
  | cons c front ih =>
    rw [List.cons_append, List.cons_append, Bool.eq_iff_iff, precedes_cons_iff, ih]
    constructor
    · rintro (hlt | ⟨-, h⟩)
      · exact absurd hlt (Nat.lt_irrefl _)
      · exact h
    · exact fun h => .inr ⟨rfl, h⟩

theorem precedes_cons_self (c : CodePoint) (s t : Text) :
    precedes (c :: s) (c :: t) = precedes s t :=
  precedes_append_left [c] s t

end Text

namespace Moment

/-! ## Numbers of a fixed width -/

/-- A number of one digit. -/
theorem padded_one {n : Nat} (h : n < 10) : padded 1 n = [.char (Nat.digitChar n)] := by
  rw [padded, Text.padLeft, Text.ofNat, Nat.toDigits_of_lt_base h]
  rfl

/-- The last digit of a number of more than one digit. -/
theorem padded_succ {width : Nat} (hwidth : 0 < width) (n : Nat) :
    padded (width + 1) n = padded width (n / 10) ++ [.char (Nat.digitChar (n % 10))] := by
  simp only [padded, Text.padLeft, Text.ofNat]
  by_cases h : n < 10
  · obtain ⟨k, rfl⟩ : ∃ k, width = k + 1 := ⟨width - 1, by omega⟩
    rw [Nat.toDigits_of_lt_base h, Nat.div_eq_of_lt h, Nat.mod_eq_of_lt h]
    show List.replicate (k + 1) (CodePoint.char '0') ++ [_]
      = List.replicate k (CodePoint.char '0') ++ [.char '0'] ++ [_]
    rw [List.replicate_succ']
  · rw [Nat.toDigits_of_base_le (by decide) (by omega)]
    simp only [Text.ofChars, List.map_append, List.length_append, List.map_cons, List.map_nil,
      List.length_cons, List.length_nil, Nat.add_sub_add_right, Nat.zero_add, List.append_assoc]

theorem toNat_digitChar {n : Nat} (h : n < 10) :
    (CodePoint.char (Nat.digitChar n)).toNat = 48 + n := by
  have hall : ∀ i : Fin 10, (CodePoint.char (Nat.digitChar i)).toNat = 48 + i := by decide
  exact hall ⟨n, h⟩

/-- **Numbers of one width are ordered by their digits.** -/
theorem precedes_padded_iff {width : Nat} (hwidth : 0 < width) {a b : Nat}
    (ha : a < 10 ^ width) (hb : b < 10 ^ width) {s t : Text} :
    (Text.precedes (padded width a ++ s) (padded width b ++ t) = true)
      ↔ a < b ∨ a = b ∧ Text.precedes s t = true := by
  induction width, hwidth using Nat.le_induction generalizing a b s t with
  | base =>
    rw [padded_one ha, padded_one hb, List.singleton_append, List.singleton_append,
      Text.precedes_cons_iff, toNat_digitChar ha, toNat_digitChar hb, Nat.add_lt_add_iff_left,
      Nat.add_left_cancel_iff]
  | succ width hwidth ih =>
    have ha' : a / 10 < 10 ^ width := by
      rw [Nat.pow_succ] at ha
      omega
    have hb' : b / 10 < 10 ^ width := by
      rw [Nat.pow_succ] at hb
      omega
    rw [padded_succ hwidth, padded_succ hwidth, List.append_assoc, List.append_assoc, ih ha' hb',
      List.singleton_append, List.singleton_append, Text.precedes_cons_iff,
      toNat_digitChar (Nat.mod_lt a (by decide)), toNat_digitChar (Nat.mod_lt b (by decide))]
    by_cases hrest : Text.precedes s t = true
    · simp only [hrest, and_true]
      omega
    · simp only [hrest, Bool.false_eq_true, and_false, or_false]
      omega

/-- Reads a number of so many digits. -/
def number? (width : Nat) (t : Text) : Option (Nat × Text) :=
  if (t.take width).length = width ∧ (t.take width).all CodePoint.isDigit = true then
    some (Nat.ofDigitChars 10 (Text.toChars (t.take width)) 0, t.drop width)
  else none

theorem length_padded {width : Nat} (hwidth : 0 < width) {n : Nat} (h : n < 10 ^ width) :
    (padded width n).length = width := by
  have hlength := (Nat.length_toDigits_le_iff (by decide) hwidth).mpr h
  simp only [padded, Text.padLeft, Text.ofNat, Text.ofChars, List.length_append,
    List.length_replicate, List.length_map]
  omega

theorem all_isDigit_padded (width n : Nat) : (padded width n).all CodePoint.isDigit = true := by
  rw [padded, Text.padLeft, List.all_append, Bool.and_eq_true, List.all_eq_true, List.all_eq_true]
  constructor
  · intro c hc
    obtain rfl := List.eq_of_mem_replicate hc
    rfl
  · intro c hc
    obtain ⟨d, hd, rfl⟩ := List.mem_map.mp hc
    exact Json.isDigit_of_mem_toDigits hd

/-- Leading zeros do not count. -/
theorem value_padded (width n : Nat) :
    Nat.ofDigitChars 10 (Text.toChars (padded width n)) 0 = n := by
  have hchars : Text.toChars (padded width n)
      = List.replicate (width - (Text.ofNat n).length) '0' ++ Nat.toDigits 10 n := by
    have hofChars : padded width n
        = Text.ofChars
          (List.replicate (width - (Text.ofNat n).length) '0' ++ Nat.toDigits 10 n) := by
      rw [padded, Text.padLeft, Text.ofChars, List.map_append, List.map_replicate]
      rfl
    rw [hofChars, Text.toChars_ofChars]
  rw [hchars]
  induction width - (Text.ofNat n).length with
  | zero => exact Json.digitsValue_toDigits n
  | succ k ih => exact ih

/-- **A number is read as it was written.** -/
theorem number?_padded {width : Nat} (hwidth : 0 < width) {n : Nat} (h : n < 10 ^ width)
    (rest : Text) : number? width (padded width n ++ rest) = some (n, rest) := by
  have hlength := length_padded hwidth h
  have htake : (padded width n ++ rest).take width = padded width n := List.take_left' hlength
  have hdrop : (padded width n ++ rest).drop width = rest := List.drop_left' hlength
  rw [number?, htake, hdrop, if_pos ⟨hlength, all_isDigit_padded width n⟩, value_padded]

/-! ## Moments in UTC -/

/-- A moment in UTC of the years 1 to 9999. -/
structure IsUtc (m : Moment) : Prop where
  date : Calendar.IsDate m.year m.month m.day
  year_le : m.year ≤ 9999
  hour_lt : m.hour < 24
  minute_lt : m.minute < 60
  second_lt : m.second < 60
  microsecond_lt : m.microsecond < 1000000
  offset : m.offset = 0

instance (m : Moment) : Decidable m.IsUtc :=
  decidable_of_iff
    ((1 ≤ m.year ∧ 1 ≤ m.month ∧ m.month ≤ 12 ∧ 1 ≤ m.day
        ∧ m.day ≤ (monthLengths (isLeapYear m.year)).getD (m.month - 1) 0)
      ∧ m.year ≤ 9999 ∧ m.hour < 24 ∧ m.minute < 60 ∧ m.second < 60 ∧ m.microsecond < 1000000
      ∧ m.offset = 0)
    ⟨fun ⟨⟨hy, hm, hm', hd, hd'⟩, h⟩ => ⟨⟨hy, hm, hm', hd, hd'⟩, h.1, h.2.1, h.2.2.1, h.2.2.2.1,
        h.2.2.2.2.1, h.2.2.2.2.2⟩,
      fun h => ⟨⟨h.date.year_pos, h.date.month_pos, h.date.month_le, h.date.day_pos,
        h.date.day_le⟩, h.year_le, h.hour_lt, h.minute_lt, h.second_lt, h.microsecond_lt,
        h.offset⟩⟩

/-- The microseconds from the start of its day to a moment. -/
def timeOfDay (m : Moment) : Nat :=
  m.hour * 3600000000 + (m.minute * 60000000 + (m.second * 1000000 + m.microsecond))

/-- The microseconds from the start of 1970 to the start of a day, by the days before it. -/
def midnight (days : Nat) : Int :=
  ((days : Int) - Calendar.dayNumber 1970 1 1) * microsecondsPerDay

/-- The microseconds from the start of 1970 to a moment in UTC. -/
def instant (m : Moment) : Int :=
  midnight (Calendar.dayNumber m.year m.month m.day) + m.timeOfDay

/-- Instants from the start of year 1 to the end of year 9999. -/
structure InCalendar (u : Int) : Prop where
  start : midnight (Calendar.dayNumber 1 1 1) ≤ u
  finish : u < midnight (Calendar.dayNumber 10000 1 1)

theorem dayNumber_newYear (year : Nat) :
    Calendar.dayNumber (year + 1) 1 1 = Calendar.daysThrough year := rfl

theorem dayNumber_1970 : Calendar.dayNumber 1970 1 1 = daysBefore1970 := by
  have := Calendar.daysThrough_eq 1969
  rw [dayNumber_newYear 1969, daysBefore1970]
  omega

section Utc

variable {m m' : Moment}

theorem IsUtc.timeOfDay_lt (h : m.IsUtc) : m.timeOfDay < microsecondsPerDay := by
  have := h.hour_lt
  have := h.minute_lt
  have := h.second_lt
  have := h.microsecond_lt
  simp only [timeOfDay, microsecondsPerDay]
  omega

/-- The calendar in microseconds. -/
theorem inCalendar_iff {u : Int} :
    InCalendar u ↔ -62135596800000000 ≤ u ∧ u < 253402300800000000 := by
  have hlength := Calendar.daysThrough_eq 9999
  have hstart : midnight (Calendar.dayNumber 1 1 1) = -62135596800000000 := by
    rw [midnight, dayNumber_1970, dayNumber_newYear 0]
    rfl
  have hfinish : midnight (Calendar.dayNumber 10000 1 1) = 253402300800000000 := by
    rw [midnight, dayNumber_1970, dayNumber_newYear 9999, daysBefore1970, microsecondsPerDay]
    omega
  rw [← hstart, ← hfinish]
  exact ⟨fun h => ⟨h.start, h.finish⟩, fun h => ⟨h.1, h.2⟩⟩

/-- The day of an instant, counted from the first of January of year one, lies in the calendar. -/
theorem InCalendar.day_eq {u : Int} (hu : InCalendar u) : ∃ n < Calendar.daysThrough 9999,
    u / (microsecondsPerDay : Nat) + (daysBefore1970 : Nat) = (n : Nat) := by
  obtain ⟨hstart, hfinish⟩ := inCalendar_iff.mp hu
  have hlength := Calendar.daysThrough_eq 9999
  rw [microsecondsPerDay, daysBefore1970]
  refine ⟨(u / 86400000000 + 719162).toNat, ?_, ?_⟩
  · omega
  · omega

/-- **Each instant of the years 1 to 9999 has its moment.** -/
theorem ofMicroseconds_spec {u : Int} (hu : InCalendar u) :
    ∃ m, ofMicroseconds u = .ok m ∧ m.IsUtc ∧ m.instant = u := by
  obtain ⟨n, hn, hdays⟩ := hu.day_eq
  obtain ⟨year, month, day, hcivil, hdate, hnumber⟩ := Calendar.civilDate_spec n
  have hyear : year ≤ 9999 := by
    by_contra hlate
    have := Calendar.daysThrough_mono (show 9999 ≤ year - 1 by omega)
    rw [Calendar.dayNumber] at hnumber
    omega
  have hpos := hdate.year_pos
  obtain ⟨k, hk⟩ : ∃ k, k = (u % (microsecondsPerDay : Nat)).toNat := ⟨_, rfl⟩
  have hrest : ((k : Nat) : Int) = u % (microsecondsPerDay : Nat) ∧ k < microsecondsPerDay := by
    simp only [microsecondsPerDay] at hk ⊢
    omega
  refine ⟨⟨year, month, day, k / 3600000000, k / 60000000 % 60, k / 1000000 % 60, k % 1000000, 0⟩,
    ?_, ?_, ?_⟩
  · have hfits : yearFits year = true := by
      simp only [yearFits, Bool.and_eq_true, decide_eq_true_eq]
      omega
    rw [ofMicroseconds, hdays, hcivil]
    dsimp only
    rw [hfits, if_neg (by decide), if_neg (by omega), ← hk, Int.toNat_natCast]
  · have hhours := hrest.2
    simp only [microsecondsPerDay] at hhours
    exact {
      date := hdate
      year_le := hyear
      hour_lt := by
        dsimp only
        omega
      minute_lt := Nat.mod_lt _ (by decide)
      second_lt := Nat.mod_lt _ (by decide)
      microsecond_lt := Nat.mod_lt _ (by decide)
      offset := rfl }
  · have htime : k / 3600000000 * 3600000000 + (k / 60000000 % 60 * 60000000
        + (k / 1000000 % 60 * 1000000 + k % 1000000)) = k := by omega
    rw [instant, timeOfDay]
    dsimp only
    rw [htime, hnumber, midnight, dayNumber_1970, ← hdays, Int.add_sub_cancel, hrest.1]
    exact Int.ediv_mul_add_emod u _

/-! ## Reading -/

/-- What ends the text of a moment in UTC. -/
def ending (m : Moment) : Text :=
  (if m.microsecond = 0 then [] else .char '.' :: padded 6 m.microsecond) ++ "+00:00"

theorem text_eq (h : m.offset = 0) : m.text
    = padded 4 m.year ++ .char '-' :: (padded 2 m.month ++ .char '-' :: (padded 2 m.day
      ++ .char 'T' :: (padded 2 m.hour ++ .char ':' :: (padded 2 m.minute ++ .char ':' ::
      (padded 2 m.second ++ m.ending))))) := by
  have hoffset : offsetText 0 = "+00:00" := rfl
  rw [text, h, hoffset, ending]
  simp only [List.append_assoc]
  rfl

/-- Takes a mark away. -/
def mark? (mark : Char) : Text → Option Text
  | [] => none
  | c :: rest => if c = .char mark then some rest else none

theorem mark?_cons (mark : Char) (rest : Text) : mark? mark (.char mark :: rest) = some rest :=
  if_pos rfl

/-- Reads the microseconds, if there are any. -/
def fraction? (t : Text) : Option (Nat × Text) :=
  match mark? '.' t with
  | some rest => number? 6 rest
  | none => some (0, t)

/-- Reads the fields of a date and time in UTC. -/
def ofText? (t : Text) : Option Moment := do
  let (year, t) ← number? 4 t
  let (month, t) ← number? 2 (← mark? '-' t)
  let (day, t) ← number? 2 (← mark? '-' t)
  let (hour, t) ← number? 2 (← mark? 'T' t)
  let (minute, t) ← number? 2 (← mark? ':' t)
  let (second, t) ← number? 2 (← mark? ':' t)
  let (microsecond, t) ← fraction? t
  if t = "+00:00" then
    some { year, month, day, hour, minute, second, microsecond, offset := 0 }
  else none

/-- Reads a text as an instant: the fields have to be those of a date and time. -/
def instantOf? (t : Text) : Option Int := do
  let m ← ofText? t
  if m.IsUtc then some m.instant else none

theorem fraction?_ending (h : m.microsecond < 1000000) :
    fraction? m.ending = some (m.microsecond, ("+00:00" : Text)) := by
  by_cases hzero : m.microsecond = 0
  · rw [ending, if_pos hzero, hzero]
    rfl
  · rw [ending, if_neg hzero, fraction?, List.cons_append, mark?_cons]
    exact number?_padded (by decide) h _

/-- The fields have no more digits than there are places for them. -/
theorem IsUtc.fields_lt (h : m.IsUtc) : m.year < 10 ^ 4 ∧ m.month < 10 ^ 2 ∧ m.day < 10 ^ 2
    ∧ m.hour < 10 ^ 2 ∧ m.minute < 10 ^ 2 ∧ m.second < 10 ^ 2 :=
  ⟨h.year_le.trans_lt (by decide), h.date.month_le.trans_lt (by decide),
    h.date.day_le_31.trans_lt (by decide), h.hour_lt.trans (by decide),
    h.minute_lt.trans (by decide), h.second_lt.trans (by decide)⟩

/-- The fields are read as they were written. -/
theorem ofText?_text (h : m.IsUtc) : ofText? m.text = some m := by
  obtain ⟨hyear, hmonth, hday, hhour, hminute, hsecond⟩ := h.fields_lt
  have hall : ofText? m.text = some { m with offset := 0 } := by
    rw [text_eq h.offset, ofText?]
    simp only [bind, Option.bind, number?_padded (Nat.succ_pos 3) hyear, mark?_cons,
      number?_padded (Nat.succ_pos 1) hmonth, number?_padded (Nat.succ_pos 1) hday,
      number?_padded (Nat.succ_pos 1) hhour, number?_padded (Nat.succ_pos 1) hminute,
      number?_padded (Nat.succ_pos 1) hsecond]
    rw [fraction?_ending h.microsecond_lt]
    exact if_pos rfl
  rw [hall, ← h.offset]

/-- **The text of a moment is read as its instant.** -/
theorem instantOf?_text (h : m.IsUtc) : instantOf? m.text = some m.instant := by
  rw [instantOf?, ofText?_text h]
  exact if_pos h

/-! ## The order of texts of moments -/

theorem precedes_ending_iff (h : m.microsecond < 1000000) (h' : m'.microsecond < 1000000) :
    Text.precedes m.ending m'.ending = true ↔ m.microsecond ≤ m'.microsecond := by
  have hrefl : Text.precedes "+00:00" "+00:00" = true := rfl
  by_cases hzero : m.microsecond = 0
  · by_cases hzero' : m'.microsecond = 0
    · rw [ending, ending, if_pos hzero, if_pos hzero', hzero, hzero']
      exact iff_of_true hrefl (Nat.le_refl _)
    · -- a sign is before a point
      rw [ending, ending, if_pos hzero, if_neg hzero', hzero]
      exact iff_of_true rfl (Nat.zero_le _)
  · by_cases hzero' : m'.microsecond = 0
    · rw [ending, ending, if_neg hzero, if_pos hzero', hzero']
      exact iff_of_false (fun hbefore => Bool.false_ne_true hbefore) (by omega)
    · rw [ending, ending, if_neg hzero, if_neg hzero', List.cons_append, List.cons_append,
        Text.precedes_cons_self, precedes_padded_iff (by decide) h h']
      constructor
      · rintro (hlt | ⟨heq, -⟩)
        · exact hlt.le
        · exact heq.le
      · intro hle
        rcases Nat.lt_or_eq_of_le hle with hlt | heq
        · exact .inl hlt
        · exact .inr ⟨heq, hrefl⟩

/-- The order of instants is that of days, and in a day that of the time. -/
theorem instant_le_iff (h : m.IsUtc) (h' : m'.IsUtc) : m.instant ≤ m'.instant
    ↔ Calendar.dayNumber m.year m.month m.day < Calendar.dayNumber m'.year m'.month m'.day
      ∨ Calendar.dayNumber m.year m.month m.day = Calendar.dayNumber m'.year m'.month m'.day
        ∧ m.timeOfDay ≤ m'.timeOfDay := by
  rw [← Calendar.le_iff_of_digit h.timeOfDay_lt h'.timeOfDay_lt]
  simp only [instant, midnight, microsecondsPerDay]
  omega

/-- The order of times of day is that of hours, minutes, seconds and microseconds. -/
theorem timeOfDay_le_iff (h : m.IsUtc) (h' : m'.IsUtc) : m.timeOfDay ≤ m'.timeOfDay
    ↔ m.hour < m'.hour ∨ m.hour = m'.hour ∧ (m.minute < m'.minute ∨ m.minute = m'.minute
      ∧ (m.second < m'.second ∨ m.second = m'.second ∧ m.microsecond ≤ m'.microsecond)) := by
  have := h.minute_lt
  have := h.second_lt
  have := h.microsecond_lt
  have := h'.minute_lt
  have := h'.second_lt
  have := h'.microsecond_lt
  rw [timeOfDay, timeOfDay, Calendar.le_iff_of_digit (by omega) (by omega),
    Calendar.le_iff_of_digit (by omega) (by omega),
    Calendar.le_iff_of_digit (by omega) (by omega)]

/-- **Texts are ordered as instants are.** -/
theorem precedes_text_iff (h : m.IsUtc) (h' : m'.IsUtc) :
    Text.precedes m.text m'.text = true ↔ m.instant ≤ m'.instant := by
  obtain ⟨hyear, hmonth, hday, hhour, hminute, hsecond⟩ := h.fields_lt
  obtain ⟨hyear', hmonth', hday', hhour', hminute', hsecond'⟩ := h'.fields_lt
  rw [text_eq h.offset, text_eq h'.offset, precedes_padded_iff (by decide) hyear hyear',
    Text.precedes_cons_self, precedes_padded_iff (by decide) hmonth hmonth',
    Text.precedes_cons_self, precedes_padded_iff (by decide) hday hday',
    Text.precedes_cons_self, precedes_padded_iff (by decide) hhour hhour',
    Text.precedes_cons_self, precedes_padded_iff (by decide) hminute hminute',
    Text.precedes_cons_self, precedes_padded_iff (by decide) hsecond hsecond',
    precedes_ending_iff h.microsecond_lt h'.microsecond_lt, ← timeOfDay_le_iff h h',
    instant_le_iff h h', Calendar.dayNumber_lt_iff h.date h'.date,
    Calendar.dayNumber_inj h.date h'.date]
  simp only [and_or_left, or_assoc, and_assoc]

end Utc

end Moment

end Deeplink
