import Mathlib.Algebra.Order.Ring.Int
import Mathlib.Tactic.IntervalCases

/-! The proleptic Gregorian calendar: dates, the days before them, and the decomposition of
a day number into cycles of 400, 100, 4 and single years that begin in March.
-/

namespace Codrik.Time

-----------------------------------------------------------------------------------------
-- Months and years
-----------------------------------------------------------------------------------------

/-- Every fourth year is a leap year, but of the centuries only every fourth. -/
def IsLeap (year : Nat) : Prop := year % 4 = 0 ∧ (year % 100 ≠ 0 ∨ year % 400 = 0)

instance : DecidablePred IsLeap := fun _ => inferInstanceAs (Decidable (_ ∧ _))

def monthLength (year : Nat) : Nat → Nat
  | 1 | 3 | 5 | 7 | 8 | 10 | 12 => 31
  | 4 | 6 | 9 | 11 => 30
  | 2 => if IsLeap year then 29 else 28
  | _ => 0

def yearLength (year : Nat) : Nat := if IsLeap year then 366 else 365

/-- The days of the months before a month. -/
def daysBeforeMonth (year : Nat) : Nat → Nat
  | 0 => 0
  | month + 1 => daysBeforeMonth year month + monthLength year month

/-- The days of the years before a year, from the year 0 on. -/
def daysBeforeYear : Nat → Nat
  | 0 => 0
  | year + 1 => daysBeforeYear year + yearLength year

/-- The twelve months make up the year. -/
theorem daysBeforeMonth_end (year : Nat) : daysBeforeMonth year 13 = yearLength year := by
  by_cases leap : IsLeap year
  · simp [daysBeforeMonth, monthLength, yearLength, leap]
  · simp [daysBeforeMonth, monthLength, yearLength, leap]

/-- The days before a month, from March on counted from the end of February. -/
theorem daysBeforeMonth_eq (year month : Nat) (first : 1 ≤ month) (last : month ≤ 12)
    : daysBeforeMonth year month
      = if month ≤ 2 then 31 * (month - 1)
        else (if IsLeap year then 60 else 59) + (153 * (month - 3) + 2) / 5 := by
  by_cases leap : IsLeap year
  · interval_cases month <;> simp [daysBeforeMonth, monthLength, leap]
  · interval_cases month <;> simp [daysBeforeMonth, monthLength, leap]

/-- A month that has days is one of the twelve. -/
theorem month_of_length {year month : Nat} (some : 1 ≤ monthLength year month)
    : 1 ≤ month ∧ month ≤ 12 := by
  unfold monthLength at some
  split at some <;> omega

/-- The leap days among the years before a year, counted by divisions; by induction on it. -/
theorem daysBeforeYear_eq (year : Nat)
    : daysBeforeYear year + (year + 99) / 100
      = 365 * year + (year + 3) / 4 + (year + 399) / 400 := by
  induction year with
  | zero => rfl
  | succ year ih =>
      rw [daysBeforeYear, yearLength]
      by_cases leap : IsLeap year
      · rw [if_pos leap]
        unfold IsLeap at leap
        omega
      · rw [if_neg leap]
        unfold IsLeap at leap
        omega

theorem daysBeforeYear_mono {a b : Nat} (le : a ≤ b) : daysBeforeYear a ≤ daysBeforeYear b := by
  induction le with
  | refl => exact Nat.le_refl _
  | step _ ih => exact Nat.le_trans ih (Nat.le_add_right _ _)

theorem daysBeforeMonth_mono (year : Nat) {a b : Nat} (le : a ≤ b)
    : daysBeforeMonth year a ≤ daysBeforeMonth year b := by
  induction le with
  | refl => exact Nat.le_refl _
  | step _ ih => exact Nat.le_trans ih (Nat.le_add_right _ _)

-----------------------------------------------------------------------------------------
-- Dates
-----------------------------------------------------------------------------------------

/-- A date of the calendar. -/
structure Date where
  year : Nat
  month : Nat
  day : Nat
  monthFirst : 1 ≤ month
  monthLast : month ≤ 12
  dayFirst : 1 ≤ day
  dayLast : day ≤ monthLength year month
deriving DecidableEq

namespace Date

/-- The days from 0000-01-01 to a date. -/
def number (date : Date) : Nat :=
  daysBeforeYear date.year + daysBeforeMonth date.year date.month + (date.day - 1)

/-- `a` comes before `b`: the years decide, then the months, then the days. -/
def Before (a b : Date) : Prop :=
  a.year < b.year
    ∨ (a.year = b.year ∧ (a.month < b.month ∨ (a.month = b.month ∧ a.day < b.day)))

instance (a b : Date) : Decidable (Before a b) := inferInstanceAs (Decidable (_ ∨ _))

theorem ext_fields {a b : Date} (year : a.year = b.year) (month : a.month = b.month)
    (day : a.day = b.day)
    : a = b := by
  cases a
  cases b
  cases year
  cases month
  cases day
  rfl

/-- A date lies in its year. -/
theorem number_lt_year (date : Date) : date.number < daysBeforeYear (date.year + 1) := by
  have within : daysBeforeMonth date.year (date.month + 1) ≤ daysBeforeMonth date.year 13 :=
    daysBeforeMonth_mono _ (Nat.succ_le_succ date.monthLast)
  rw [daysBeforeMonth_end, daysBeforeMonth] at within
  have first := date.dayFirst
  have last := date.dayLast
  rw [number, daysBeforeYear]
  omega

/-- Earlier dates have smaller numbers. -/
theorem Before.number_lt {a b : Date} (before : a.Before b) : a.number < b.number := by
  have firstA := a.dayFirst
  have firstB := b.dayFirst
  have lastA := a.dayLast
  rcases before with year | ⟨year, month | ⟨month, day⟩⟩
  · have start : daysBeforeYear (a.year + 1) ≤ daysBeforeYear b.year := daysBeforeYear_mono year
    have inside := a.number_lt_year
    have after : daysBeforeYear b.year ≤ b.number := by
      rw [number, Nat.add_assoc]
      exact Nat.le_add_right _ _
    omega
  · have start : daysBeforeMonth b.year (a.month + 1) ≤ daysBeforeMonth b.year b.month :=
      daysBeforeMonth_mono _ month
    rw [daysBeforeMonth, ← year] at start
    rw [number, number, ← year]
    omega
  · rw [number, number, ← year, ← month]
    omega

theorem before_or (a b : Date) : a.Before b ∨ a = b ∨ b.Before a := by
  rcases Nat.lt_trichotomy a.year b.year with year | year | year
  · exact Or.inl (Or.inl year)
  · rcases Nat.lt_trichotomy a.month b.month with month | month | month
    · exact Or.inl (Or.inr ⟨year, Or.inl month⟩)
    · rcases Nat.lt_trichotomy a.day b.day with day | day | day
      · exact Or.inl (Or.inr ⟨year, Or.inr ⟨month, day⟩⟩)
      · exact Or.inr (Or.inl (ext_fields year month day))
      · exact Or.inr (Or.inr (Or.inr ⟨year.symm, Or.inr ⟨month.symm, day⟩⟩))
    · exact Or.inr (Or.inr (Or.inr ⟨year.symm, Or.inl month⟩))
  · exact Or.inr (Or.inr (Or.inl year))

/-- Dates are ordered as their numbers are. -/
theorem before_iff {a b : Date} : a.Before b ↔ a.number < b.number := by
  refine ⟨Before.number_lt, fun less => ?_⟩
  rcases before_or a b with before | rfl | after
  · exact before
  · exact absurd less (Nat.lt_irrefl _)
  · exact absurd after.number_lt (Nat.lt_asymm less)

/-- A date is determined by its number. -/
theorem number_injective {a b : Date} (same : a.number = b.number) : a = b := by
  rcases before_or a b with before | equal | after
  · exact absurd before.number_lt (Nat.not_lt_of_le (Nat.le_of_eq same.symm))
  · exact equal
  · exact absurd after.number_lt (Nat.not_lt_of_le (Nat.le_of_eq same))

end Date

-----------------------------------------------------------------------------------------
-- Cycles
-----------------------------------------------------------------------------------------

/-- The place of a day in its cycle of 400 years, which begin on March 1st: centuries,
fourths of them, years and days.
-/
structure Place (dayOfEra : Nat) where
  century : Nat
  fourth : Nat
  year : Nat
  day : Nat
  whole : dayOfEra = 36524 * century + 1461 * fourth + 365 * year + day
  centuryLast : century ≤ 3
  fourthLast : fourth ≤ 24
  yearLast : year ≤ 3
  /-- Only the last year of a fourth has 366 days, and of the last fourths only one. -/
  dayLast : day ≤ 364 ∨ (day = 365 ∧ year = 3 ∧ (fourth ≤ 23 ∨ century = 3))

/-- The place is found by three divisions. -/
def place (dayOfEra : Nat) (within : dayOfEra < 146097) : Place dayOfEra where
  century := min 3 (dayOfEra / 36524)
  fourth := (dayOfEra - 36524 * min 3 (dayOfEra / 36524)) / 1461
  year := min 3 ((dayOfEra - 36524 * min 3 (dayOfEra / 36524)) % 1461 / 365)
  day := (dayOfEra - 36524 * min 3 (dayOfEra / 36524)) % 1461
    - 365 * min 3 ((dayOfEra - 36524 * min 3 (dayOfEra / 36524)) % 1461 / 365)
  whole := by omega
  centuryLast := by omega
  fourthLast := by omega
  yearLast := by omega
  dayLast := by omega

namespace Place

variable {dayOfEra : Nat} (place : Place dayOfEra)

/-- The year in the cycle. -/
def yearOfEra : Nat := 100 * place.century + 4 * place.fourth + place.year

theorem yearOfEra_lt : place.yearOfEra < 400 := by
  have century := place.centuryLast
  have fourth := place.fourthLast
  have year := place.yearLast
  unfold yearOfEra
  omega

/-- The days of the cycle before the year. -/
theorem dayOfEra_eq
    : dayOfEra + place.yearOfEra / 100
      = 365 * place.yearOfEra + place.yearOfEra / 4 + place.day := by
  have century := place.centuryLast
  have fourth := place.fourthLast
  have year := place.yearLast
  have whole := place.whole
  unfold yearOfEra
  omega

/-- The days of a cycle by 1460: one too many for each fourth but those of the centuries. -/
theorem div_1460
    : ∃ extra, dayOfEra / 1460 = 25 * place.century + place.fourth + extra
      ∧ extra ≤ place.day ∧ place.day ≤ 364 + extra := by
  have century := place.centuryLast
  have fourth := place.fourthLast
  have year := place.yearLast
  have day := place.dayLast
  have whole := place.whole
  have spread : dayOfEra = 1460 * (25 * place.century + place.fourth)
      + (24 * place.century + place.fourth + 365 * place.year + place.day) := by
    omega
  refine ⟨(24 * place.century + place.fourth + 365 * place.year + place.day) / 1460, ?_, ?_, ?_⟩
  · exact (congrArg (· / 1460) spread).trans (Nat.mul_add_div (by decide) _ _)
  · omega
  · omega

/-- Only the last day of a cycle lies beyond four centuries of 36524 days. -/
theorem div_36524
    : ∃ last, dayOfEra / 36524 = place.century + last ∧ dayOfEra / 146096 = last := by
  have century := place.centuryLast
  have fourth := place.fourthLast
  have year := place.yearLast
  have whole := place.whole
  have rest : 1461 * place.fourth + 365 * place.year + place.day ≤ 36523
      ∨ (dayOfEra = 146096 ∧ place.century = 3) := by
    rcases place.dayLast with short | ⟨long, -, early | late⟩
    · omega
    · omega
    · omega
  rcases rest with within | ⟨final, third⟩
  · exact ⟨0, by omega, by omega⟩
  · exact ⟨1, by omega, by omega⟩

/-- The year of a day in its cycle, found by one division. -/
theorem yearOfEra_eq
    : (dayOfEra - dayOfEra / 1460 + dayOfEra / 36524 - dayOfEra / 146096) / 365
      = place.yearOfEra := by
  have whole := place.whole
  obtain ⟨extra, fours, least, most⟩ := place.div_1460
  obtain ⟨last, centuries, final⟩ := place.div_36524
  rw [fours, centuries, final]
  unfold yearOfEra
  omega

/-- The month counted from March. -/
def monthOfYear : Nat := (5 * place.day + 2) / 153

/-- A day lies in its month: the months from March on start at `(153 * n + 2) / 5`. -/
theorem monthOfYear_bounds
    : place.monthOfYear ≤ 11 ∧ (153 * place.monthOfYear + 2) / 5 ≤ place.day
      ∧ place.day < (153 * (place.monthOfYear + 1) + 2) / 5 := by
  have last := place.dayLast
  unfold monthOfYear
  omega

/-- The year a day lies in, which changes in January. -/
def civilYear (era : Nat) : Nat :=
  400 * era + place.yearOfEra + if place.monthOfYear < 10 then 0 else 1

def civilMonth : Nat :=
  if place.monthOfYear < 10 then place.monthOfYear + 3 else place.monthOfYear - 9

def civilDay : Nat := place.day - (153 * place.monthOfYear + 2) / 5 + 1

/-- The last day of a long year is the 29th of February of a leap year. -/
theorem isLeap_of_last (era : Nat) (last : place.day = 365)
    : IsLeap (400 * era + place.yearOfEra + 1) := by
  have century := place.centuryLast
  have fourth := place.fourthLast
  have long := place.dayLast
  unfold IsLeap yearOfEra
  omega

theorem civilDay_le (era : Nat)
    : place.civilDay ≤ monthLength (place.civilYear era) place.civilMonth := by
  obtain ⟨most, start, stop⟩ := place.monthOfYear_bounds
  have last := place.dayLast
  have leap := place.isLeap_of_last era
  unfold civilDay civilMonth civilYear
  generalize place.monthOfYear = month at *
  interval_cases month
  case «11» =>
    simp only [monthLength, Nat.reduceLT, if_false, Nat.reduceSub]
    split
    · omega
    · rename_i short
      have : place.day ≠ 365 := fun same => short (leap same)
      omega
  all_goals
    simp only [monthLength, Nat.reduceLT, if_true, if_false, Nat.reduceAdd, Nat.reduceSub]
    omega

/-- The date of a day in a cycle. -/
def date (era : Nat) : Date where
  year := place.civilYear era
  month := place.civilMonth
  day := place.civilDay
  monthFirst := by
    have most := place.monthOfYear_bounds.1
    unfold civilMonth
    split <;> omega
  monthLast := by
    have most := place.monthOfYear_bounds.1
    unfold civilMonth
    split <;> omega
  dayFirst := Nat.le_add_left _ _
  dayLast := place.civilDay_le era

/-- The January after the year begins 306 days after its first day, and the cycles begin 60
days into the year 0.
-/
theorem daysBeforeYear_next (era : Nat)
    : daysBeforeYear (400 * era + place.yearOfEra + 1) + place.yearOfEra / 100
      = 146097 * era + 365 * place.yearOfEra + place.yearOfEra / 4 + 366 := by
  have century := place.centuryLast
  have fourth := place.fourthLast
  have year := place.yearLast
  have days := daysBeforeYear_eq (400 * era + place.yearOfEra + 1)
  have fours : (400 * era + place.yearOfEra + 1 + 3) / 4
      = 100 * era + 25 * place.century + place.fourth + 1 := by
    unfold yearOfEra
    omega
  have hundreds : (400 * era + place.yearOfEra + 1 + 99) / 100 = 4 * era + place.century + 1 := by
    unfold yearOfEra
    omega
  have cycles : (400 * era + place.yearOfEra + 1 + 399) / 400 = era + 1 := by
    unfold yearOfEra
    omega
  have foursOfEra : place.yearOfEra / 4 = 25 * place.century + place.fourth := by
    unfold yearOfEra
    omega
  have hundredsOfEra : place.yearOfEra / 100 = place.century := by
    unfold yearOfEra
    omega
  omega

/-- The date of a day has its number. -/
theorem number_date (era : Nat) : (place.date era).number = 146097 * era + dayOfEra + 60 := by
  obtain ⟨most, start, stop⟩ := place.monthOfYear_bounds
  have whole := place.dayOfEra_eq
  have next := place.daysBeforeYear_next era
  change daysBeforeYear (place.civilYear era)
    + daysBeforeMonth (place.civilYear era) place.civilMonth + (place.civilDay - 1) = _
  have months := daysBeforeMonth_eq (place.civilYear era) place.civilMonth
    (place.date era).monthFirst (place.date era).monthLast
  rw [months, civilDay]
  by_cases early : place.monthOfYear < 10
  · have month : place.civilMonth = place.monthOfYear + 3 := if_pos early
    have year : place.civilYear era = 400 * era + place.yearOfEra := by
      rw [civilYear, if_pos early, Nat.add_zero]
    rw [daysBeforeYear, yearLength] at next
    rw [year, month, if_neg (by omega), Nat.add_sub_cancel]
    clear months
    by_cases leap : IsLeap (400 * era + place.yearOfEra)
    · rw [if_pos leap] at next ⊢
      omega
    · rw [if_neg leap] at next ⊢
      omega
  · have month : place.civilMonth = place.monthOfYear - 9 := if_neg early
    have year : place.civilYear era = 400 * era + place.yearOfEra + 1 := by
      rw [civilYear, if_neg early]
    rw [year, month, if_pos (by omega)]
    omega

end Place

/-- The date so many days after 0000-03-01. -/
def marchDate (days : Nat) : Date :=
  (place (days % 146097) (Nat.mod_lt _ (Nat.zero_lt_succ _))).date (days / 146097)

theorem number_marchDate (days : Nat) : (marchDate days).number = days + 60 := by
  rw [marchDate, Place.number_date, Nat.div_add_mod]

theorem marchDate_eq {days era dayOfEra : Nat} (within : dayOfEra < 146097)
    (eraEq : era = days / 146097) (dayEq : dayOfEra = days % 146097)
    : marchDate days = (place dayOfEra within).date era := by
  subst eraEq
  subst dayEq
  rfl

end Codrik.Time
