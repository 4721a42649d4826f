import Deeplink.Binary64
import Deeplink.Text

/-!
# Moments

Instants of civil time: a date of the proleptic Gregorian calendar, a time of day and the
offset from UTC in which both are given.

- `Moment`, `Moment.text`: a moment and its ISO 8601 text. Microseconds are written only
  if there are any.
- `civilDate`: the year, month and day of a day number, for every integer.
- `Moment.ofMicroseconds`: the UTC moment so many microseconds after the start of 1970.
- `Moment.ofSeconds`, `Moment.ofWholeSeconds`: the same for a binary64 number of seconds, rounded to
  microseconds, and for a whole number.
-/

namespace Deeplink

/-- A civil date and time, `offset` minutes ahead of UTC. -/
structure Moment where
  year : Nat
  month : Nat
  day : Nat
  hour : Nat
  minute : Nat
  second : Nat
  microsecond : Nat
  offset : Int
  deriving DecidableEq

namespace Moment

/-! ## Texts -/

/-- A number with leading zeros up to the width. -/
def padded (width n : Nat) : Text := Text.padLeft '0' width (Text.ofNat n)

/-- The offset as a sign, hours and minutes. -/
def offsetText (minutes : Int) : Text :=
  (if minutes < 0 then "-" else "+") ++ padded 2 (minutes.natAbs / 60) ++ ":"
    ++ padded 2 (minutes.natAbs % 60)

/-- The ISO 8601 text of a moment. -/
def text (m : Moment) : Text :=
  padded 4 m.year ++ "-" ++ padded 2 m.month ++ "-" ++ padded 2 m.day ++ "T"
    ++ padded 2 m.hour ++ ":" ++ padded 2 m.minute ++ ":" ++ padded 2 m.second
    ++ (if m.microsecond = 0 then [] else .char '.' :: padded 6 m.microsecond)
    ++ offsetText m.offset

end Moment

/-! ## Dates -/

/-- Every fourth year is a leap year, but of the full centuries only every fourth. -/
def isLeapYear (year : Int) : Bool :=
  year % 4 = 0 && (year % 100 ≠ 0 || year % 400 = 0)

/-- The lengths of the twelve months. -/
def monthLengths (leap : Bool) : List Nat :=
  [31, if leap then 29 else 28, 31, 30, 31, 30, 31, 31, 30, 31, 30, 31]

/-- The number of whole months in so many days, and the days left. -/
def takeMonths : List Nat → Nat → Nat × Nat
  | [], days => (0, days)
  | length :: rest, days =>
    if days < length then (0, days)
    else
      let (months, left) := takeMonths rest (days - length)
      (months + 1, left)

/-- The number of days in four centuries. -/
def daysPerCycle : Nat := 146097

/-- The year, month and day of a day, counted from the first of January of year one. Whole
cycles of four centuries, centuries, groups of four years and years are taken off in turn;
the last century and the last year of a group have one day more. -/
def civilDate (days : Int) : Int × Nat × Nat :=
  let inCycle := (days % daysPerCycle).toNat
  let centuries := min (inCycle / 36524) 3
  let inCentury := inCycle - centuries * 36524
  let groups := inCentury / 1461
  let inGroup := inCentury - groups * 1461
  let years := min (inGroup / 365) 3
  let inYear := inGroup - years * 365
  let year := days / daysPerCycle * 400 + (centuries * 100 + groups * 4 + years + 1 : Nat)
  let (months, left) := takeMonths (monthLengths (isLeapYear year)) inYear
  (year, months + 1, left + 1)

/-! ## Instants -/

/-- Why an instant has no moment. -/
inductive MomentFault where
  | notANumber
  | clock
  | calendar
  | year (n : Int)
  deriving DecidableEq

def MomentFault.message : MomentFault → Text
  | .notANumber => "Invalid value NaN (not a number)"
  | .clock => "timestamp out of range for platform time_t"
  | .calendar => "[Errno 75] Value too large for defined data type"
  | .year n => "year " ++ Text.ofInt n ++ " is out of range"

namespace Moment

/-- The days from the first of January of year one to the start of 1970. -/
def daysBefore1970 : Nat := 719162

def microsecondsPerDay : Nat := 86400000000

/-- Years are counted from 1900 in 32 bits before they are compared with the calendar. -/
def yearFits (year : Int) : Bool := -2147481748 ≤ year && year ≤ 2147485547

/-- A year outside the calendar as it is reported, in 32 bits. -/
def reportedYear (year : Int) : Int := year.bmod (Nat.pow 2 32)

/-- The UTC moment `u` microseconds after the start of 1970, in the years 1 to 9999. -/
def ofMicroseconds (u : Int) : Except MomentFault Moment :=
  let (year, month, day) := civilDate (u / microsecondsPerDay + daysBefore1970)
  let inDay := (u % microsecondsPerDay).toNat
  if !yearFits year then .error .calendar
  else if year < 1 ∨ 9999 < year then .error (.year (reportedYear year))
  else
    .ok {
      year := year.toNat, month, day
      hour := inDay / 3600000000
      minute := inDay / 60000000 % 60
      second := inDay / 1000000 % 60
      microsecond := inDay % 1000000
      offset := 0 }

/-- The microseconds of a finite number of seconds. The fraction is scaled as a binary64
number before it is rounded; a half goes to the even neighbour. -/
def microseconds (x : Binary64) : Int :=
  let fraction := x.units % Binary64.unitsPerOne
  let scaled := Binary64.ofRatio false (fraction * 1000000) Binary64.unitsPerOne
  let micro := Binary64.nearest scaled.units Binary64.unitsPerOne
  x.truncated * 1000000 + (if x.isNegative then -(micro : Int) else micro)

/-- Whether a clock can count the seconds in 64 bits. -/
def clockFits (seconds : Int) : Bool :=
  -(Nat.pow 2 63 : Int) ≤ seconds && seconds < (Nat.pow 2 63 : Int)

/-- The UTC moment `x` seconds after the start of 1970. -/
def ofSeconds (x : Binary64) : Except MomentFault Moment :=
  if x.isNaN then .error .notANumber
  else if x.isInfinite || !clockFits x.truncated then .error .clock
  else ofMicroseconds (microseconds x)

/-- The UTC moment `n` seconds after the start of 1970. -/
def ofWholeSeconds (n : Int) : Except MomentFault Moment :=
  if clockFits n then ofMicroseconds (n * 1000000) else .error .clock

end Moment

end Deeplink
