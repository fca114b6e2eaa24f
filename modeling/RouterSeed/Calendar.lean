/-
Instants and calendar dates.

An instant is a count of nanoseconds since 1970-01-01 00:00:00 UTC, of
either sign: modification times of files reach before 1970 and are finer
than a second, while certificates and zip archives keep calendar dates
of whole seconds. A date is the proleptic Gregorian one; leap seconds do
not exist on this time line.

The conversion counts days from 0000-03-01, so that a leap day is the
last day of its year and a 400 year cycle always has 146097 days.
-/

namespace RouterSeed

/-- An instant, in nanoseconds since 1970-01-01 00:00:00 UTC. -/
structure Instant where
  nanos : Int
  deriving DecidableEq, Repr

/-- A length of time, in nanoseconds. -/
structure Duration where
  nanos : Nat
  deriving DecidableEq, Repr

namespace Duration

/-- So many whole seconds. -/
def ofSeconds (seconds : Nat) : Duration := ⟨seconds * 1000000000⟩

/-- Whole seconds, the rest cut off. -/
def seconds (d : Duration) : Nat := d.nanos / 1000000000

/-- Whole seconds to the nearest one; half a second counts as one. -/
def rounded (d : Duration) : Nat := (d.nanos + 500000000) / 1000000000

instance : LE Duration := ⟨fun a b => a.nanos ≤ b.nanos⟩

instance (a b : Duration) : Decidable (a ≤ b) := inferInstanceAs (Decidable (a.nanos ≤ b.nanos))

@[simp] theorem seconds_ofSeconds (s : Nat) : (ofSeconds s).seconds = s := by
  simp only [seconds, ofSeconds]
  omega

end Duration

namespace Instant

/-- The instant `seconds` whole seconds after 1970. -/
def ofSeconds (seconds : Int) : Instant := ⟨seconds * 1000000000⟩

/-- Whole seconds since 1970, rounded towards the past. -/
def seconds (t : Instant) : Int := t.nanos.fdiv 1000000000

/-- The time that has passed since an instant; none has since one that is
still to come. -/
def since (now earlier : Instant) : Duration := ⟨(now.nanos - earlier.nanos).toNat⟩

@[simp] theorem seconds_ofSeconds (s : Int) : (ofSeconds s).seconds = s := by
  simp only [seconds, ofSeconds, Int.fdiv_eq_ediv_of_nonneg _ (by decide : (0 : Int) ≤ 1000000000)]
  omega

end Instant

namespace Calendar

/-- A date and a time of day, in UTC. -/
structure DateTime where
  year : Int
  month : Nat
  day : Nat
  hour : Nat
  minute : Nat
  second : Nat
  deriving DecidableEq, Repr

/-- Every fourth year is a leap year, but not every hundredth, but every
four hundredth. -/
def isLeapYear (year : Int) : Bool :=
  year % 4 = 0 && (year % 100 ≠ 0 || year % 400 = 0)

/-- The days of a month; a month that does not exist has none. -/
def daysInMonth (year : Int) (month : Nat) : Nat :=
  match month with
  | 2 => if isLeapYear year then 29 else 28
  | 4 | 6 | 9 | 11 => 30
  | 1 | 3 | 5 | 7 | 8 | 10 | 12 => 31
  | _ => 0

/-- The fields name an instant. -/
def DateTime.Valid (t : DateTime) : Prop :=
  1 ≤ t.day ∧ t.day ≤ daysInMonth t.year t.month ∧ t.hour < 24 ∧ t.minute < 60 ∧ t.second < 60

instance (t : DateTime) : Decidable t.Valid := by unfold DateTime.Valid; infer_instance

-- ================================================ days and dates

/-- Days from 1970-01-01 to the given date. -/
def dayNumber (year : Int) (month day : Nat) : Int :=
  let y := if month ≤ 2 then year - 1 else year
  let era := y.fdiv 400
  let yearOfEra := y - era * 400
  let monthFromMarch : Int := if month ≤ 2 then month + 9 else (month : Int) - 3
  let dayOfYear := (153 * monthFromMarch + 2) / 5 + day - 1
  let dayOfEra := yearOfEra * 365 + yearOfEra / 4 - yearOfEra / 100 + dayOfYear
  era * 146097 + dayOfEra - 719468

/-- The date `days` days after 1970-01-01, as year, month and day. -/
def dateOfDay (days : Int) : Int × Nat × Nat :=
  let shifted := days + 719468
  let era := shifted.fdiv 146097
  let dayOfEra := shifted - era * 146097
  let yearOfEra := (dayOfEra - dayOfEra / 1460 + dayOfEra / 36524 - dayOfEra / 146096) / 365
  let dayOfYear := dayOfEra - (365 * yearOfEra + yearOfEra / 4 - yearOfEra / 100)
  let monthFromMarch := (5 * dayOfYear + 2) / 153
  let day := dayOfYear - (153 * monthFromMarch + 2) / 5 + 1
  let month := if monthFromMarch < 10 then monthFromMarch + 3 else monthFromMarch - 9
  let year := yearOfEra + era * 400
  (if month ≤ 2 then year + 1 else year, month.toNat, day.toNat)

-- ============================================ seconds and date-times

/-- Seconds from 1970 to a date and time of day. -/
def DateTime.seconds (t : DateTime) : Int :=
  dayNumber t.year t.month t.day * 86400 + t.hour * 3600 + t.minute * 60 + t.second

/-- The date and time of day `seconds` seconds after 1970. -/
def DateTime.ofSeconds (seconds : Int) : DateTime :=
  let days := seconds.fdiv 86400
  let ofDay := (seconds - days * 86400).toNat
  let (year, month, day) := dateOfDay days
  { year, month, day, hour := ofDay / 3600, minute := ofDay / 60 % 60, second := ofDay % 60 }

end Calendar

end RouterSeed
