/-
The calendar is a numbering of days, without gaps and in both directions.

A date comes out of three divisions, each of which leaves a remainder
that the next one takes: the year of a 400 year cycle, the month of a
year that starts in March, and the day. What has to be shown is that
each quotient and remainder stays in its range, and that day 365 occurs
in leap years only. The year is found by a single division after the
leap days so far have been taken out; a century at a time it is linear
arithmetic (`yearOfCentury_mem`).

The way back needs no divisions to be undone. The number of a date is a
sum over its year, month and day (`dayNumber_eq`), every year and month
ends before the next one begins, and so different dates have different
numbers (`dayNumber_inj`). As each day has a date with its number, the
date of that number can only be the one it was taken from.

Consumed by the proofs about certificates, whose validity is written as
dates, and about the times of zip entries.
-/
import Mathlib.Tactic.IntervalCases
import RouterSeed.Calendar

namespace RouterSeed.Calendar

/-- The year of a century, from the day of the century. `shift` is what
the leap days of the centuries before leave over. -/
private theorem yearOfCentury_mem {day leaps year shift : Int} (hday : 0 ≤ day)
    (hday' : day < 36524)
    (hshift : 0 ≤ shift) (hshift' : shift ≤ 72) (hleaps : leaps = (shift + day) / 1460)
    (hyear : year = (day - leaps) / 365) :
    0 ≤ year ∧ year < 100 ∧ 0 ≤ day - (365 * year + year / 4)
      ∧ day - (365 * year + year / 4) ≤ 365
      ∧ (day - (365 * year + year / 4) = 365 → year % 4 = 3 ∧ year ≠ 99) := by
  -- four years and a leap day at a time
  obtain ⟨cycle, dayOfCycle, rfl, hcycle, hcycle', hrest, hrest'⟩ :
      ∃ cycle dayOfCycle, day = 1461 * cycle + dayOfCycle ∧ 0 ≤ cycle ∧ cycle ≤ 24
        ∧ 0 ≤ dayOfCycle ∧ dayOfCycle < 1461 :=
    ⟨day / 1461, day % 1461, by omega, by omega, by omega, by omega, by omega⟩
  have hleaps : leaps = cycle ∨ (leaps = cycle + 1 ∧ 1388 ≤ cycle + dayOfCycle) := by omega
  have hquarter : year / 4 = cycle := by omega
  omega

/-- The year of a 400 year cycle, from the day of the cycle. -/
private theorem yearOfEra_mem {day year : Int} (hday : 0 ≤ day) (hday' : day < 146097)
    (hyear : year = (day - day / 1460 + day / 36524 - day / 146096) / 365) :
    0 ≤ year ∧ year < 400 ∧ 0 ≤ day - (365 * year + year / 4 - year / 100)
      ∧ day - (365 * year + year / 4 - year / 100) ≤ 365
      ∧ (day - (365 * year + year / 4 - year / 100) = 365 →
          year % 4 = 3 ∧ (year % 100 ≠ 99 ∨ year = 399)) := by
  -- The last day of an era is the leap day of its fourth century, which the quotients do
  -- not see; all others lie in a century of 36524 days.
  by_cases hlast : day = 146096
  · subst hlast hyear
    decide
  · obtain ⟨century, dayOfCentury, rfl, hcentury, hcentury', hrest, hrest'⟩ :
        ∃ century dayOfCentury, day = 36524 * century + dayOfCentury ∧ 0 ≤ century
          ∧ century ≤ 3 ∧ 0 ≤ dayOfCentury ∧ dayOfCentury < 36524 :=
      ⟨day / 36524, day % 36524, by omega, by omega, by omega, by omega, by omega⟩
    have hshift : 0 ≤ 24 * century := by omega
    have hshift' : 24 * century ≤ 72 := by omega
    obtain ⟨hk, hk', hdayOfYear, hdayOfYear', hleap⟩ :=
      yearOfCentury_mem hrest hrest' hshift hshift' rfl rfl
    have hsum : year = 100 * century
        + (dayOfCentury - (24 * century + dayOfCentury) / 1460) / 365 := by omega
    clear hyear
    generalize (dayOfCentury - (24 * century + dayOfCentury) / 1460) / 365 = yearOfCentury at *
    subst hsum
    have hquarters : (100 * century + yearOfCentury) / 4 = 25 * century + yearOfCentury / 4 := by
      omega
    have hcenturies : (100 * century + yearOfCentury) / 100 = century := by omega
    rw [hquarters, hcenturies]
    refine ⟨by omega, by omega, by omega, by omega, ?_⟩
    intro hday365
    have := hleap (by omega)
    omega

/-- The month and the day, from the day of a year that starts in March. -/
private theorem monthOfYear_mem {day month : Int} (hday : 0 ≤ day) (hday' : day ≤ 365)
    (hmonth : month = (5 * day + 2) / 153) :
    0 ≤ month ∧ month ≤ 11 ∧ 1 ≤ day - (153 * month + 2) / 5 + 1
      ∧ day - (153 * month + 2) / 5 + 1 ≤ 31
      ∧ (month = 1 ∨ month = 3 ∨ month = 6 ∨ month = 8 → day - (153 * month + 2) / 5 + 1 ≤ 30)
      ∧ (month = 11 → day - (153 * month + 2) / 5 + 1 ≤ 29
          ∧ (day ≠ 365 → day - (153 * month + 2) / 5 + 1 ≤ 28)) := by
  omega

/-- The lengths of the months, as bounds on a day: 31, but 30 for four of
them, and 28 or 29 for February. -/
private theorem le_daysInMonth {year : Int} {month : Nat} (hmonth : 1 ≤ month)
    (hmonth' : month ≤ 12)
    {day : Nat} (hlong : day ≤ 31)
    (hshort : month = 4 ∨ month = 6 ∨ month = 9 ∨ month = 11 → day ≤ 30)
    (hfebruary : month = 2 → day ≤ 29 ∧ (isLeapYear year = false → day ≤ 28)) :
    day ≤ daysInMonth year month := by
  by_cases htwo : month = 2
  · obtain ⟨hleap, hother⟩ := hfebruary htwo
    subst htwo
    show day ≤ if isLeapYear year then 29 else 28
    split
    · exact hleap
    next h => exact hother (Bool.eq_false_iff.mpr h)
  · interval_cases month
    all_goals first
      | exact hlong
      | exact hshort (by decide)
      | exact absurd rfl htwo

-- ======================================================= day numbers

/-- The month, counted from March. -/
def monthFromMarch (month : Nat) : Int := if month ≤ 2 then month + 9 else month - 3

/-- The year that a month belongs to if years start in March. -/
def yearFromMarch (year : Int) (month : Nat) : Int := if month ≤ 2 then year - 1 else year

/-- The days from 0000-03-01 to the first of March of a year. -/
def daysBeforeMarch (year : Int) : Int := 365 * year + year / 4 - year / 100 + year / 400

/-- The cycles of 400 years are a matter of bookkeeping only. -/
theorem dayNumber_eq (year : Int) (month day : Nat) :
    dayNumber year month day
      = daysBeforeMarch (yearFromMarch year month) + (153 * monthFromMarch month + 2) / 5 + day
        - 719469 := by
  unfold dayNumber daysBeforeMarch monthFromMarch yearFromMarch
  dsimp only
  rw [Int.fdiv_eq_ediv_of_nonneg _ (by decide)]
  generalize (if month ≤ 2 then year - 1 else year) = y
  generalize (if month ≤ 2 then (month : Int) + 9 else (month : Int) - 3) = m
  have hquarters : (y - y / 400 * 400) / 4 = y / 4 - 100 * (y / 400) := by omega
  have hcenturies : (y - y / 400 * 400) / 100 = y / 100 - 4 * (y / 400) := by omega
  rw [hquarters, hcenturies]
  omega

/-- A leap day at the end of a year moves the next one. -/
private theorem daysBeforeMarch_lt {a b : Int} (h : a < b) :
    daysBeforeMarch a + 365 ≤ daysBeforeMarch b
      ∧ (isLeapYear (a + 1) = true → daysBeforeMarch a + 366 ≤ daysBeforeMarch b) := by
  unfold daysBeforeMarch isLeapYear
  constructor
  · omega
  · simp
    omega

/-- A month of the calendar ends before the next one starts; the last
one, February, ends with its year. -/
theorem daysInMonth_mem {year : Int} {month day : Nat} (hfirst : 1 ≤ day)
    (hlast : day ≤ daysInMonth year month) :
    1 ≤ month ∧ month ≤ 12
      ∧ (monthFromMarch month < 11
          ∧ (153 * monthFromMarch month + 2) / 5 + day ≤ (153 * (monthFromMarch month + 1) + 2) / 5
        ∨ monthFromMarch month = 11
          ∧ (day ≤ 28 ∨ day = 29 ∧ isLeapYear (yearFromMarch year month + 1) = true)) := by
  have hmonth : 1 ≤ month ∧ month ≤ 12 := by
    by_contra hnone
    have hempty : daysInMonth year month = 0 := by
      unfold daysInMonth
      split <;> omega
    omega
  refine ⟨hmonth.1, hmonth.2, ?_⟩
  -- Months are counted from March, so February is the last one and the only one whose
  -- length depends on the year.
  by_cases htwo : month = 2
  · subst htwo
    refine .inr ⟨rfl, ?_⟩
    have hyear : yearFromMarch year 2 + 1 = year := Int.sub_add_cancel year 1
    rw [hyear]
    change day ≤ if isLeapYear year then 29 else 28 at hlast
    split at hlast
    next hleap =>
      by_cases hleapDay : day = 29
      · exact .inr ⟨hleapDay, hleap⟩
      · exact .inl (by omega)
    next => exact .inl hlast
  · left
    obtain ⟨hone, htwelve⟩ := hmonth
    unfold monthFromMarch
    interval_cases month
    all_goals first
      | exact absurd rfl htwo
      | (change day ≤ 31 at hlast; norm_num; omega)
      | (change day ≤ 30 at hlast; norm_num; omega)

private theorem monthFromMarch_nonneg (month : Nat) : 0 ≤ monthFromMarch month := by
  unfold monthFromMarch
  omega

/-- A date of an earlier year, counted from March, has a smaller number. -/
theorem dayNumber_lt {year year' : Int} {month month' day day' : Nat} (hfirst : 1 ≤ day)
    (hlast : day ≤ daysInMonth year month) (hfirst' : 1 ≤ day')
    (hlt : yearFromMarch year month < yearFromMarch year' month') :
    dayNumber year month day < dayNumber year' month' day' := by
  obtain ⟨-, -, hinside⟩ := daysInMonth_mem hfirst hlast
  obtain ⟨hcommon, hleap⟩ := daysBeforeMarch_lt hlt
  have hnonneg := monthFromMarch_nonneg month'
  rw [dayNumber_eq, dayNumber_eq]
  -- the last day of February is the last one of its year
  rcases hinside with hinside | ⟨hm11, hshort | ⟨hleapDay, hleapYear⟩⟩
  · omega
  · omega
  · have := hleap hleapYear
    omega

/-- Different dates have different numbers. -/
theorem dayNumber_inj {year year' : Int} {month month' day day' : Nat} (hfirst : 1 ≤ day)
    (hlast : day ≤ daysInMonth year month) (hfirst' : 1 ≤ day')
    (hlast' : day' ≤ daysInMonth year' month')
    (h : dayNumber year month day = dayNumber year' month' day') :
    year = year' ∧ month = month' ∧ day = day' := by
  obtain ⟨hone, htwelve, hinside⟩ := daysInMonth_mem hfirst hlast
  obtain ⟨hone', htwelve', hinside'⟩ := daysInMonth_mem hfirst' hlast'
  -- A day in a later year has a larger number, so the years are the same, and then the
  -- months are, for the same reason.
  have hyears : yearFromMarch year month = yearFromMarch year' month' := by
    rcases lt_trichotomy (yearFromMarch year month) (yearFromMarch year' month') with hlt | hsame | hlt
    · exact absurd h (dayNumber_lt hfirst hlast hfirst' hlt).ne
    · exact hsame
    · exact absurd h (dayNumber_lt hfirst' hlast' hfirst hlt).ne'
  rw [dayNumber_eq, dayNumber_eq] at h
  rw [hyears] at h
  have hmonths : monthFromMarch month = monthFromMarch month' := by
    rcases lt_trichotomy (monthFromMarch month) (monthFromMarch month') with hlt | hsame | hlt
    · omega
    · exact hsame
    · omega
  rw [hmonths] at h
  have hmonth : month = month' := by
    unfold monthFromMarch at hmonths
    omega
  subst hmonth
  refine ⟨?_, rfl, by omega⟩
  unfold yearFromMarch at hyears
  split at hyears <;> omega

/-- The number of a day that is given by its 400 year cycle, the year of
that and the month, both counted from March. -/
private theorem dayNumber_ofEra {era year fromMarch month : Int} (hyear : 0 ≤ year)
    (hyear' : year < 400)
    (hm : 0 ≤ fromMarch) (hm' : fromMarch ≤ 11)
    (hmonth : month = if fromMarch < 10 then fromMarch + 3 else fromMarch - 9) (day : Nat) :
    dayNumber (if month ≤ 2 then year + era * 400 + 1 else year + era * 400) month.toNat day
      = 146097 * era + (365 * year + year / 4 - year / 100) + (153 * fromMarch + 2) / 5 + day
        - 719469 := by
  have hmonths : monthFromMarch month.toNat = fromMarch := by
    unfold monthFromMarch
    omega
  have hyears : yearFromMarch (if month ≤ 2 then year + era * 400 + 1 else year + era * 400)
      month.toNat = year + era * 400 := by
    unfold yearFromMarch
    omega
  rw [dayNumber_eq, hmonths, hyears]
  unfold daysBeforeMarch
  -- an era is a whole number of leap cycles
  have hquarters : (year + era * 400) / 4 = year / 4 + 100 * era := by omega
  have hcenturies : (year + era * 400) / 100 = year / 100 + 4 * era := by omega
  have hcycles : (year + era * 400) / 400 = era := by omega
  rw [hquarters, hcenturies, hcycles]
  omega

/-- Every date that comes out of a day of the time line is one that the
calendar has, and names that day. -/
theorem dateOfDay_mem {days year : Int} {month day : Nat}
    (hdate : dateOfDay days = (year, month, day)) :
    1 ≤ day ∧ day ≤ daysInMonth year month ∧ dayNumber year month day = days := by
  unfold dateOfDay at hdate
  dsimp only at hdate
  rw [Int.fdiv_eq_ediv_of_nonneg _ (by decide)] at hdate
  -- The days are counted within an era first, then within a year, then within a month; each
  -- step leaves a remainder in range.
  obtain ⟨era, dayOfEra, hsplit, hday, hday'⟩ :
      ∃ era dayOfEra, days + 719468 = 146097 * era + dayOfEra ∧ 0 ≤ dayOfEra
        ∧ dayOfEra < 146097 :=
    ⟨(days + 719468) / 146097, (days + 719468) % 146097, by omega, by omega, by omega⟩
  have hquotient : (days + 719468) / 146097 = era := by omega
  have hremainder : days + 719468 - era * 146097 = dayOfEra := by omega
  rw [hquotient, hremainder] at hdate
  obtain ⟨hyear, hyear', hdoy, hdoy', hleap⟩ := yearOfEra_mem hday hday' rfl
  generalize (dayOfEra - dayOfEra / 1460 + dayOfEra / 36524 - dayOfEra / 146096) / 365 = yearOfEra
    at *
  generalize hdoyValue : dayOfEra - (365 * yearOfEra + yearOfEra / 4 - yearOfEra / 100) = dayOfYear
    at *
  obtain ⟨hm, hm', hd, hd', hthirty, hfebruary⟩ := monthOfYear_mem hdoy hdoy' rfl
  generalize hmonthValue : (5 * dayOfYear + 2) / 153 = fromMarch at *
  generalize hdayValue : dayOfYear - (153 * fromMarch + 2) / 5 + 1 = dayOfMonth at *
  cases hdate
  refine ⟨by omega, ?inMonth, ?number⟩
  case inMonth =>
    apply le_daysInMonth
    case hmonth => omega
    case hmonth' => omega
    case hlong => omega
    case hshort => omega
    case hfebruary =>
      intro htwo
      have hm11 : fromMarch = 11 := by omega
      refine ⟨by have := hfebruary hm11; omega, ?_⟩
      intro hcommon
      by_cases h365 : dayOfYear = 365
      · have := hleap h365
        unfold isLeapYear at hcommon
        simp at hcommon
        omega
      · have := (hfebruary hm11).2 h365
        omega
  case number =>
    rw [dayNumber_ofEra hyear hyear' hm hm' rfl]
    omega

/-- The date of a day is the date with that number. -/
theorem dateOfDay_dayNumber {year : Int} {month day : Nat} (hfirst : 1 ≤ day)
    (hlast : day ≤ daysInMonth year month) :
    dateOfDay (dayNumber year month day) = (year, month, day) := by
  obtain ⟨hfirst', hlast', hnumber⟩ := dateOfDay_mem (rfl : dateOfDay (dayNumber year month day) = _)
  obtain ⟨hyear, hmonth, hday⟩ := dayNumber_inj hfirst' hlast' hfirst hlast hnumber
  exact Prod.ext hyear (Prod.ext hmonth hday)

/-- The dates from 1970 on have the numbers from zero on. -/
theorem year_of_dayNumber {year : Int} {month day : Nat} (hfirst : 1 ≤ day)
    (hlast : day ≤ daysInMonth year month) (h : 0 ≤ dayNumber year month day) : 1970 ≤ year := by
  obtain ⟨hone, htwelve, hinside⟩ := daysInMonth_mem hfirst hlast
  rw [dayNumber_eq] at h
  unfold daysBeforeMarch at h
  unfold monthFromMarch at hinside h
  unfold yearFromMarch at h
  split at h <;> omega

namespace DateTime

/-- Every number of seconds is a date and time that exists. -/
theorem valid_ofSeconds (seconds : Int) : (ofSeconds seconds).Valid := by
  obtain ⟨hfirst, hlast, -⟩ := dateOfDay_mem (rfl : dateOfDay (seconds.fdiv 86400) = _)
  have hofDay : (seconds - seconds.fdiv 86400 * 86400).toNat < 86400 := by
    rw [Int.fdiv_eq_ediv_of_nonneg _ (by decide)]
    omega
  refine ⟨hfirst, hlast, ?hour, ?minute, ?second⟩
  case hour =>
    show (seconds - seconds.fdiv 86400 * 86400).toNat / 3600 < 24
    omega
  case minute => exact Nat.mod_lt _ (by decide)
  case second => exact Nat.mod_lt _ (by decide)

/-- The fields that an instant has name it. -/
theorem seconds_ofSeconds (seconds : Int) : (ofSeconds seconds).seconds = seconds := by
  have hrest : 0 ≤ seconds - seconds.fdiv 86400 * 86400 := by
    rw [Int.fdiv_eq_ediv_of_nonneg _ (by decide)]
    omega
  unfold DateTime.seconds ofSeconds
  dsimp only
  obtain ⟨⟨year, month, day⟩, hdate⟩ : ∃ date, dateOfDay (seconds.fdiv 86400) = date := ⟨_, rfl⟩
  rw [hdate, (dateOfDay_mem hdate).2.2]
  push_cast
  omega

/-- The fields of a date that exists are those of the instant they name. -/
theorem ofSeconds_seconds {t : DateTime} (h : t.Valid) : ofSeconds t.seconds = t := by
  obtain ⟨hfirst, hlast, hhour, hminute, hsecond⟩ := h
  obtain ⟨year, month, day, hour, minute, second⟩ := t
  dsimp only at hfirst hlast hhour hminute hsecond
  -- day and time of day are quotient and remainder
  have hdays : DateTime.seconds ⟨year, month, day, hour, minute, second⟩ / 86400
      = dayNumber year month day := by
    unfold DateTime.seconds
    dsimp only
    omega
  have hofDay : (DateTime.seconds ⟨year, month, day, hour, minute, second⟩
      - dayNumber year month day * 86400).toNat = hour * 3600 + minute * 60 + second := by
    unfold DateTime.seconds
    dsimp only
    omega
  unfold ofSeconds
  dsimp only
  rw [Int.fdiv_eq_ediv_of_nonneg _ (by decide), hdays, hofDay, dateOfDay_dayNumber hfirst hlast]
  simp only [DateTime.mk.injEq, true_and]
  omega

/-- Nothing from the epoch on is in a year before 1970. -/
theorem year_ofSeconds {seconds : Int} (h : 0 ≤ seconds) : 1970 ≤ (ofSeconds seconds).year := by
  obtain ⟨hfirst, hlast, hnumber⟩ := dateOfDay_mem (rfl : dateOfDay (seconds.fdiv 86400) = _)
  apply year_of_dayNumber hfirst hlast
  rw [hnumber]
  exact Int.fdiv_nonneg h (by decide)

/-- Day and month of a date that exists are in the ranges of the calendar. -/
theorem Valid.date_mem {t : DateTime} (h : t.Valid) :
    1 ≤ t.month ∧ t.month ≤ 12 ∧ 1 ≤ t.day ∧ t.day ≤ 31 := by
  obtain ⟨hfirst, hlast, -⟩ := h
  obtain ⟨hone, htwelve, -⟩ := daysInMonth_mem hfirst hlast
  have hlong : daysInMonth t.year t.month ≤ 31 := by
    unfold daysInMonth
    split <;> first | omega | (split <;> omega)
  exact ⟨hone, htwelve, hfirst, Nat.le_trans hlast hlong⟩

/-- Every field but the year has at most two digits. -/
theorem Valid.fields_lt {t : DateTime} (h : t.Valid) :
    ∀ field ∈ [t.month, t.day, t.hour, t.minute, t.second], field < 100 := by
  obtain ⟨-, hmonth, -, hday⟩ := h.date_mem
  obtain ⟨-, -, hhour, hminute, hsecond⟩ := h
  simp only [List.mem_cons, List.not_mem_nil, or_false]
  rintro field (rfl | rfl | rfl | rfl | rfl) <;> omega

/-- What keeps fields from naming an instant. -/
theorem not_valid_iff {t : DateTime} :
    ¬t.Valid ↔ t.month = 0 ∨ 12 < t.month ∨ t.day = 0 ∨ daysInMonth t.year t.month < t.day
      ∨ 23 < t.hour ∨ 59 < t.minute ∨ 59 < t.second := by
  by_cases h : t.Valid
  · obtain ⟨hone, htwelve, -⟩ := h.date_mem
    refine iff_of_false (not_not_intro h) ?_
    obtain ⟨hfirst, hlast, hhour, hminute, hsecond⟩ := h
    omega
  · refine iff_of_true h ?_
    unfold Valid at h
    omega

end DateTime

end RouterSeed.Calendar
