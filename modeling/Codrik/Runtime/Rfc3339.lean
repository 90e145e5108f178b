import Codrik.Runtime.Message
import Codrik.Time.Instant

/-! The texts of clock readings (`Timestamp::to_rfc3339_utc` of `runtime/model.rs`) and their
agreement with the validator of stored texts.
-/

namespace Codrik.Runtime

open Codrik.Encoding
open Codrik.Time

-----------------------------------------------------------------------------------------
-- Arithmetic of the source
-----------------------------------------------------------------------------------------

/-- How a computation ends without a value: an `i64` operation overflows, or an error. -/
inductive Halt
  | overflow
  | error (message : String)
deriving DecidableEq

namespace I64

/-- The values of an `i64`. -/
def InRange (value : Int) : Prop := -9223372036854775808 ≤ value ∧ value ≤ 9223372036854775807

instance : DecidablePred InRange := fun _ => inferInstanceAs (Decidable (_ ∧ _))

/-- The result of an operation, if it is an `i64`. -/
def checked (value : Int) : Except Halt Int :=
  if InRange value then .ok value else .error .overflow

def add (a b : Int) : Except Halt Int := checked (a + b)
def sub (a b : Int) : Except Halt Int := checked (a - b)
def mul (a b : Int) : Except Halt Int := checked (a * b)

/-- Division and remainder round toward zero. -/
def div (a b : Int) : Except Halt Int := checked (a.tdiv b)
def rem (a b : Int) : Except Halt Int := checked (a.tmod b)

theorem checked_ok {value result : Int} (same : value = result) (range : InRange result)
    : checked value = .ok result := by
  rw [same, checked, if_pos range]

theorem add_ok {a b result : Int} (same : a + b = result) (range : InRange result)
    : add a b = .ok result :=
  checked_ok same range

theorem sub_ok {a b result : Int} (same : a - b = result) (range : InRange result)
    : sub a b = .ok result :=
  checked_ok same range

theorem mul_ok {a b result : Int} (same : a * b = result) (range : InRange result)
    : mul a b = .ok result :=
  checked_ok same range

theorem div_ok {a b result : Int} (nonnegative : 0 ≤ a) (same : a / b = result)
    (range : InRange result)
    : div a b = .ok result :=
  checked_ok ((Int.tdiv_eq_ediv_of_nonneg nonnegative).trans same) range

theorem rem_ok {a b result : Int} (nonnegative : 0 ≤ a) (same : a % b = result)
    (range : InRange result)
    : rem a b = .ok result :=
  checked_ok ((Int.tmod_eq_emod_of_nonneg nonnegative).trans same) range

end I64

/-- `{:0width$}` of an `i64`: the sign counts as one of the `width` characters. -/
def zeroPadded (width : Nat) (value : Int) : List Char :=
  if value < 0 then '-' :: List.leftpad (width - 1) '0' (Nat.toDigits 10 value.natAbs)
  else List.leftpad width '0' (Nat.toDigits 10 value.natAbs)

-----------------------------------------------------------------------------------------
-- Printing
-----------------------------------------------------------------------------------------

/-- `civil_date_from_unix_days` -/
def civilDateFromUnixDays (days : Int) : Except Halt (Int × Int × Int) := do
  let z ← I64.add days 719468
  let era ← I64.div z 146097
  let dayOfEra ← I64.sub z (← I64.mul era 146097)
  let yearOfEra ← I64.div (← I64.sub (← I64.add (← I64.sub dayOfEra (← I64.div dayOfEra 1460))
    (← I64.div dayOfEra 36524)) (← I64.div dayOfEra 146096)) 365
  let year ← I64.add yearOfEra (← I64.mul era 400)
  let dayOfYear ← I64.sub dayOfEra (← I64.sub (← I64.add (← I64.mul 365 yearOfEra)
    (← I64.div yearOfEra 4)) (← I64.div yearOfEra 100))
  let monthPrime ← I64.div (← I64.add (← I64.mul 5 dayOfYear) 2) 153
  let day ← I64.add (← I64.sub dayOfYear
    (← I64.div (← I64.add (← I64.mul 153 monthPrime) 2) 5)) 1
  let month ← I64.add monthPrime (if monthPrime < 10 then 3 else -9)
  let year ← I64.add year (if month ≤ 2 then 1 else 0)
  .ok (year, month, day)

def beforeEpochError : String := "timestamp must not be before Unix epoch"
def yearRangeError : String := "timestamp year exceeds RFC3339 four-digit range"

/-- `to_rfc3339_utc` -/
def toRfc3339Utc (time : Timestamp) : Except Halt String :=
  if time < 0 then
    .error (.error beforeEpochError)
  else do
    let days ← I64.div time 86400000
    let dayMillis ← I64.rem time 86400000
    let (year, month, day) ← civilDateFromUnixDays days
    if year > 9999 then
      .error (.error yearRangeError)
    else do
      let hour ← I64.div dayMillis 3600000
      let minute ← I64.div (← I64.rem dayMillis 3600000) 60000
      let second ← I64.div (← I64.rem dayMillis 60000) 1000
      let millis ← I64.rem dayMillis 1000
      .ok (String.ofList (zeroPadded 4 year ++ '-' :: (zeroPadded 2 month ++ '-' ::
        (zeroPadded 2 day ++ 'T' :: (zeroPadded 2 hour ++ ':' :: (zeroPadded 2 minute ++ ':' ::
          (zeroPadded 2 second ++ '.' :: (zeroPadded 3 millis ++ ['Z']))))))))

-----------------------------------------------------------------------------------------
-- The date of a day
-----------------------------------------------------------------------------------------

/-- A computation goes on with the value of its first step. -/
theorem bind_ok {α β : Type} {first : Except Halt α} {next : α → Except Halt β} {value : α}
    {result : Except Halt β} (here : first = .ok value) (rest : next value = result)
    : (first >>= next) = result := by
  rw [here]
  exact rest

/-- The date of a day after the epoch. -/
def civilDate (days : Nat) : Date := marchDate (days + 719468)

theorem number_civilDate (days : Nat) : (civilDate days).number = Instant.epoch + days := by
  rw [civilDate, number_marchDate, Instant.epoch]
  omega

/-- The civil date of a day is computed without overflow. -/
theorem civilDateFromUnixDays_eq (days : Nat) (few : days ≤ 106751991167)
    : civilDateFromUnixDays days = .ok ((civilDate days).year, (civilDate days).month,
        (civilDate days).day) := by
  obtain ⟨era, eraEq⟩ : ∃ era, era = (days + 719468) / 146097 := ⟨_, rfl⟩
  obtain ⟨dayOfEra, dayEq⟩ : ∃ dayOfEra, dayOfEra = (days + 719468) % 146097 := ⟨_, rfl⟩
  have within : dayOfEra < 146097 := by omega
  have date := marchDate_eq within eraEq dayEq
  generalize Codrik.Time.place dayOfEra within = place at date
  have yearOfEra := place.yearOfEra_eq
  have below := place.yearOfEra_lt
  have ofEra := place.dayOfEra_eq
  obtain ⟨most, start, stop⟩ := place.monthOfYear_bounds
  have last : place.day ≤ 365 := by
    have := place.dayLast
    omega
  have z : I64.add days 719468 = .ok ((days + 719468 : Nat) : Int) :=
    I64.add_ok (by omega) ⟨by omega, by omega⟩
  have eras : I64.div ((days + 719468 : Nat) : Int) 146097 = .ok (era : Int) :=
    I64.div_ok (by omega) (by omega) ⟨by omega, by omega⟩
  have eraDays : I64.mul era 146097 = .ok ((era * 146097 : Nat) : Int) :=
    I64.mul_ok (by omega) ⟨by omega, by omega⟩
  have rest : I64.sub ((days + 719468 : Nat) : Int) ((era * 146097 : Nat) : Int)
      = .ok (dayOfEra : Int) :=
    I64.sub_ok (by omega) ⟨by omega, by omega⟩
  have fours : I64.div dayOfEra 1460 = .ok ((dayOfEra / 1460 : Nat) : Int) :=
    I64.div_ok (by omega) (by omega) ⟨by omega, by omega⟩
  have spare : I64.sub dayOfEra ((dayOfEra / 1460 : Nat) : Int)
      = .ok ((dayOfEra - dayOfEra / 1460 : Nat) : Int) :=
    I64.sub_ok (by omega) ⟨by omega, by omega⟩
  have centuries : I64.div dayOfEra 36524 = .ok ((dayOfEra / 36524 : Nat) : Int) :=
    I64.div_ok (by omega) (by omega) ⟨by omega, by omega⟩
  have restored : I64.add ((dayOfEra - dayOfEra / 1460 : Nat) : Int)
      ((dayOfEra / 36524 : Nat) : Int)
      = .ok ((dayOfEra - dayOfEra / 1460 + dayOfEra / 36524 : Nat) : Int) :=
    I64.add_ok (by omega) ⟨by omega, by omega⟩
  have final : I64.div dayOfEra 146096 = .ok ((dayOfEra / 146096 : Nat) : Int) :=
    I64.div_ok (by omega) (by omega) ⟨by omega, by omega⟩
  have even : I64.sub ((dayOfEra - dayOfEra / 1460 + dayOfEra / 36524 : Nat) : Int)
      ((dayOfEra / 146096 : Nat) : Int)
      = .ok ((dayOfEra - dayOfEra / 1460 + dayOfEra / 36524 - dayOfEra / 146096 : Nat) : Int) :=
    I64.sub_ok (by omega) ⟨by omega, by omega⟩
  have years : I64.div ((dayOfEra - dayOfEra / 1460 + dayOfEra / 36524 - dayOfEra / 146096
      : Nat) : Int) 365 = .ok (place.yearOfEra : Int) :=
    I64.div_ok (by omega) (by omega) ⟨by omega, by omega⟩
  have eraYears : I64.mul era 400 = .ok ((era * 400 : Nat) : Int) :=
    I64.mul_ok (by omega) ⟨by omega, by omega⟩
  have year : I64.add place.yearOfEra ((era * 400 : Nat) : Int)
      = .ok ((400 * era + place.yearOfEra : Nat) : Int) :=
    I64.add_ok (by omega) ⟨by omega, by omega⟩
  have yearDays : I64.mul 365 place.yearOfEra = .ok ((365 * place.yearOfEra : Nat) : Int) :=
    I64.mul_ok (by omega) ⟨by omega, by omega⟩
  have leaps : I64.div place.yearOfEra 4 = .ok ((place.yearOfEra / 4 : Nat) : Int) :=
    I64.div_ok (by omega) (by omega) ⟨by omega, by omega⟩
  have leapDays : I64.add ((365 * place.yearOfEra : Nat) : Int)
      ((place.yearOfEra / 4 : Nat) : Int)
      = .ok ((365 * place.yearOfEra + place.yearOfEra / 4 : Nat) : Int) :=
    I64.add_ok (by omega) ⟨by omega, by omega⟩
  have skips : I64.div place.yearOfEra 100 = .ok ((place.yearOfEra / 100 : Nat) : Int) :=
    I64.div_ok (by omega) (by omega) ⟨by omega, by omega⟩
  have before : I64.sub ((365 * place.yearOfEra + place.yearOfEra / 4 : Nat) : Int)
      ((place.yearOfEra / 100 : Nat) : Int)
      = .ok ((365 * place.yearOfEra + place.yearOfEra / 4 - place.yearOfEra / 100 : Nat)
        : Int) :=
    I64.sub_ok (by omega) ⟨by omega, by omega⟩
  have dayOfYear : I64.sub dayOfEra ((365 * place.yearOfEra + place.yearOfEra / 4
      - place.yearOfEra / 100 : Nat) : Int) = .ok (place.day : Int) :=
    I64.sub_ok (by omega) ⟨by omega, by omega⟩
  have fives : I64.mul 5 place.day = .ok ((5 * place.day : Nat) : Int) :=
    I64.mul_ok (by omega) ⟨by omega, by omega⟩
  have shifted : I64.add ((5 * place.day : Nat) : Int) 2 = .ok ((5 * place.day + 2 : Nat) : Int) :=
    I64.add_ok (by omega) ⟨by omega, by omega⟩
  have monthPrime : I64.div ((5 * place.day + 2 : Nat) : Int) 153
      = .ok (place.monthOfYear : Int) := by
    refine I64.div_ok (by omega) ?_ ⟨by omega, by omega⟩
    unfold Place.monthOfYear
    omega
  have months : I64.mul 153 place.monthOfYear = .ok ((153 * place.monthOfYear : Nat) : Int) :=
    I64.mul_ok (by omega) ⟨by omega, by omega⟩
  have monthsShifted : I64.add ((153 * place.monthOfYear : Nat) : Int) 2
      = .ok ((153 * place.monthOfYear + 2 : Nat) : Int) :=
    I64.add_ok (by omega) ⟨by omega, by omega⟩
  have monthDays : I64.div ((153 * place.monthOfYear + 2 : Nat) : Int) 5
      = .ok (((153 * place.monthOfYear + 2) / 5 : Nat) : Int) :=
    I64.div_ok (by omega) (by omega) ⟨by omega, by omega⟩
  have dayIndex : I64.sub place.day (((153 * place.monthOfYear + 2) / 5 : Nat) : Int)
      = .ok ((place.day - (153 * place.monthOfYear + 2) / 5 : Nat) : Int) :=
    I64.sub_ok (by omega) ⟨by omega, by omega⟩
  have day : I64.add ((place.day - (153 * place.monthOfYear + 2) / 5 : Nat) : Int) 1
      = .ok (place.civilDay : Int) := by
    refine I64.add_ok ?_ ?_
    · rw [Place.civilDay]
      omega
    · constructor <;> rw [Place.civilDay] <;> omega
  have month : I64.add place.monthOfYear (if (place.monthOfYear : Int) < 10 then 3 else -9)
      = .ok (place.civilMonth : Int) := by
    rw [Place.civilMonth]
    split
    · rw [if_pos (by omega)]
      exact I64.add_ok (by omega) ⟨by omega, by omega⟩
    · rw [if_neg (by omega)]
      exact I64.add_ok (by omega) ⟨by omega, by omega⟩
  have civilYear : I64.add ((400 * era + place.yearOfEra : Nat) : Int)
      (if (place.civilMonth : Int) ≤ 2 then 1 else 0) = .ok (place.civilYear era : Int) := by
    rw [Place.civilMonth, Place.civilYear]
    split
    · rw [if_neg (by omega)]
      exact I64.add_ok (by omega) ⟨by omega, by omega⟩
    · rw [if_pos (by omega)]
      exact I64.add_ok (by omega) ⟨by omega, by omega⟩
  rw [civilDate, date]
  exact bind_ok z <| bind_ok eras <| bind_ok eraDays <| bind_ok rest <| bind_ok fours <|
    bind_ok spare <| bind_ok centuries <| bind_ok restored <| bind_ok final <| bind_ok even <|
    bind_ok years <| bind_ok eraYears <| bind_ok year <| bind_ok yearDays <| bind_ok leaps <|
    bind_ok leapDays <| bind_ok skips <| bind_ok before <| bind_ok dayOfYear <|
    bind_ok fives <| bind_ok shifted <| bind_ok monthPrime <| bind_ok months <|
    bind_ok monthsShifted <| bind_ok monthDays <| bind_ok dayIndex <| bind_ok day <|
    bind_ok month <| bind_ok civilYear rfl

-----------------------------------------------------------------------------------------
-- The text of an instant
-----------------------------------------------------------------------------------------

/-- The instant so many milliseconds after the epoch. -/
def instantOf (millis : Nat) : Instant where
  date := civilDate (millis / 86400000)
  hour := millis % 86400000 / 3600000
  minute := millis % 86400000 % 3600000 / 60000
  second := millis % 86400000 % 60000 / 1000
  millis := millis % 86400000 % 1000
  hourLast := by omega
  minuteLast := by omega
  secondLast := by omega
  millisLast := by omega

theorem unixMillis_instantOf (millis : Nat) : (instantOf millis).unixMillis = millis := by
  have number : (instantOf millis).date.number = Instant.epoch + millis / 86400000 :=
    number_civilDate _
  rw [Instant.unixMillis, number]
  change (((Instant.epoch + millis / 86400000 : Nat) : Int) - Instant.epoch) * 86400000
    + ((millis % 86400000 / 3600000 : Nat) : Int) * 3600000
    + ((millis % 86400000 % 3600000 / 60000 : Nat) : Int) * 60000
    + ((millis % 86400000 % 60000 / 1000 : Nat) : Int) * 1000
    + ((millis % 86400000 % 1000 : Nat) : Int) = millis
  omega

/-- Every instant from the epoch on is one of these. -/
theorem eq_instantOf {instant : Instant} {millis : Nat} (same : instant.unixMillis = millis)
    : instant = instantOf millis :=
  Instant.unixMillis_injective (same.trans (unixMillis_instantOf millis).symm)

/-- A number that fits is padded to its numeral. -/
theorem zeroPadded_eq {width n : Nat} (fits : n < 10 ^ width) (wide : 0 < width)
    : zeroPadded width n = numeral width n := by
  rw [zeroPadded, if_neg (Int.not_lt.mpr (Int.natCast_nonneg n)), Int.natAbs_natCast]
  exact leftpad_toDigits fits wide

/-- A day of a month has two digits. -/
theorem day_lt (date : Date) : date.day < 100 := by
  have last := date.dayLast
  have longest : monthLength date.year date.month ≤ 31 := by
    unfold monthLength
    split <;> try split
    all_goals decide
  omega

/-- A clock reading is printed as the text of its instant, unless its year has five digits. -/
theorem toRfc3339Utc_eq (millis : Nat) (fits : millis ≤ 9223372036854775807)
    : toRfc3339Utc millis
      = if (instantOf millis).date.year ≤ 9999 then
          .ok (String.ofList (instantOf millis).text)
        else .error (.error yearRangeError) := by
  have days : I64.div millis 86400000 = .ok ((millis / 86400000 : Nat) : Int) :=
    I64.div_ok (by omega) (by omega) ⟨by omega, by omega⟩
  have dayMillis : I64.rem millis 86400000 = .ok ((millis % 86400000 : Nat) : Int) :=
    I64.rem_ok (by omega) (by omega) ⟨by omega, by omega⟩
  have civil := civilDateFromUnixDays_eq (millis / 86400000) (by omega)
  have hour : I64.div ((millis % 86400000 : Nat) : Int) 3600000
      = .ok (((instantOf millis).hour : Nat) : Int) := by
    refine I64.div_ok (by omega) ?_ ⟨by omega, ?_⟩
    · rfl
    · have := (instantOf millis).hourLast
      omega
  have hourMillis : I64.rem ((millis % 86400000 : Nat) : Int) 3600000
      = .ok ((millis % 86400000 % 3600000 : Nat) : Int) :=
    I64.rem_ok (by omega) (by omega) ⟨by omega, by omega⟩
  have minute : I64.div ((millis % 86400000 % 3600000 : Nat) : Int) 60000
      = .ok (((instantOf millis).minute : Nat) : Int) := by
    refine I64.div_ok (by omega) ?_ ⟨by omega, ?_⟩
    · rfl
    · have := (instantOf millis).minuteLast
      omega
  have minuteMillis : I64.rem ((millis % 86400000 : Nat) : Int) 60000
      = .ok ((millis % 86400000 % 60000 : Nat) : Int) :=
    I64.rem_ok (by omega) (by omega) ⟨by omega, by omega⟩
  have second : I64.div ((millis % 86400000 % 60000 : Nat) : Int) 1000
      = .ok (((instantOf millis).second : Nat) : Int) := by
    refine I64.div_ok (by omega) ?_ ⟨by omega, ?_⟩
    · rfl
    · have := (instantOf millis).secondLast
      omega
  have thousandths : I64.rem ((millis % 86400000 : Nat) : Int) 1000
      = .ok (((instantOf millis).millis : Nat) : Int) := by
    refine I64.rem_ok (by omega) ?_ ⟨by omega, ?_⟩
    · rfl
    · have := (instantOf millis).millisLast
      omega
  rw [toRfc3339Utc, if_neg (Int.not_lt.mpr (Int.natCast_nonneg millis))]
  refine bind_ok days (bind_ok dayMillis (bind_ok civil ?_))
  change (if ((instantOf millis).date.year : Int) > 9999 then _ else _) = _
  by_cases four : (instantOf millis).date.year ≤ 9999
  · have few : ¬((instantOf millis).date.year : Int) > 9999 := by omega
    rw [if_pos four, if_neg few]
    refine bind_ok hour (bind_ok hourMillis (bind_ok minute (bind_ok minuteMillis
      (bind_ok second (bind_ok thousandths ?_)))))
    have month := (instantOf millis).date.monthLast
    have day := day_lt (instantOf millis).date
    have hourLast := (instantOf millis).hourLast
    have minuteLast := (instantOf millis).minuteLast
    have secondLast := (instantOf millis).secondLast
    have millisLast := (instantOf millis).millisLast
    change Except.ok (String.ofList (zeroPadded 4 (instantOf millis).date.year ++ '-' ::
      (zeroPadded 2 (instantOf millis).date.month ++ '-' ::
        (zeroPadded 2 (instantOf millis).date.day ++ 'T' :: _)))) = _
    rw [zeroPadded_eq (by omega) (by decide), zeroPadded_eq (by omega) (by decide),
      zeroPadded_eq (by omega) (by decide), zeroPadded_eq (by omega) (by decide),
      zeroPadded_eq (by omega) (by decide), zeroPadded_eq (by omega) (by decide),
      zeroPadded_eq (by omega) (by decide), Instant.text]
  · have many : ((instantOf millis).date.year : Int) > 9999 := by omega
    rw [if_neg four, if_pos many]

-----------------------------------------------------------------------------------------
-- The validator
-----------------------------------------------------------------------------------------

/-- The validator's own months are those of the calendar. -/
theorem daysInMonth_eq (year : Nat) : ∀ month, daysInMonth year month = monthLength year month
  | 0 | 1 | 2 | 3 | 4 | 5 | 6 | 7 | 8 | 9 | 10 | 11 | 12 | _ + 13 => rfl

/-- The validator accepts the texts of instants. -/
theorem validateReceivedAt_text (instant : Instant) (first : 1 ≤ instant.date.year)
    (last : instant.date.year ≤ 9999)
    : validateReceivedAt (String.ofList instant.text) = .ok () := by
  have month := instant.date.monthLast
  have day := day_lt instant.date
  have dayFirst := instant.date.dayFirst
  have hour := instant.hourLast
  have minute := instant.minuteLast
  have second := instant.secondLast
  have millis := instant.millisLast
  have years : decimal (numeral 4 instant.date.year) = instant.date.year :=
    numeralValue_numeral (by omega)
  have months : decimal (numeral 2 instant.date.month) = instant.date.month :=
    numeralValue_numeral (by omega)
  have days : decimal (numeral 2 instant.date.day) = instant.date.day :=
    numeralValue_numeral (by omega)
  have hours : decimal (numeral 2 instant.hour) = instant.hour :=
    numeralValue_numeral (by omega)
  have minutes : decimal (numeral 2 instant.minute) = instant.minute :=
    numeralValue_numeral (by omega)
  have seconds : decimal (numeral 2 instant.second) = instant.second :=
    numeralValue_numeral (by omega)
  have digit : ∀ n, (Nat.digitChar (n % 10)).isDigit = true := by
    intro n
    rw [Nat.isDigit_digitChar]
    exact decide_eq_true (Nat.mod_lt _ (by decide))
  have within : instant.date.day ≤ daysInMonth instant.date.year instant.date.month := by
    rw [daysInMonth_eq]
    exact instant.date.dayLast
  simp only [numeral, List.nil_append, List.cons_append] at years months days
  simp only [numeral, List.nil_append, List.cons_append] at hours minutes seconds
  simp only [validateReceivedAt, String.toList_ofList, Instant.text, numeral, List.nil_append,
    List.cons_append, List.all_cons, List.all_nil, digit, years, months, days, hours, minutes,
    seconds, Bool.and_self, Bool.not_true, Bool.false_eq_true, if_false]
  rw [if_neg (by omega)]

/-- What the validator accepts is the text of an instant. -/
theorem instant_of_validateReceivedAt {value : String} (accepted : validateReceivedAt value = .ok ())
    : ∃ instant : Instant, value = String.ofList instant.text
      ∧ instant.date.year = decimal (value.toList.take 4) ∧ instant.date.year ≤ 9999 := by
  unfold validateReceivedAt at accepted
  split at accepted
  · rename_i y₀ y₁ y₂ y₃ m₀ m₁ d₀ d₁ h₀ h₁ n₀ n₁ s₀ s₁ f₀ f₁ f₂ shape
    split at accepted
    · cases accepted
    · rename_i some
      dsimp only at accepted
      split at accepted
      · cases accepted
      · rename_i fields
        rw [not_or, not_or, not_or, not_or, not_or, Nat.not_lt, Nat.not_lt, Nat.not_lt,
          Nat.not_lt, daysInMonth_eq] at fields
        obtain ⟨year, day, dayLast, hour, minute, second⟩ := fields
        have digits : [y₀, y₁, y₂, y₃, m₀, m₁, d₀, d₁, h₀, h₁, n₀, n₁, s₀, s₁, f₀, f₁, f₂].all
            Char.isDigit = true :=
          (Bool.not_eq_false' ..).mp (eq_false_of_ne_true some)
        have read : ∀ group : List Char, group ⊆ [y₀, y₁, y₂, y₃, m₀, m₁, d₀, d₁, h₀, h₁, n₀, n₁,
              s₀, s₁, f₀, f₁, f₂] →
            numeral group.length (decimal group) = group
              ∧ decimal group < 10 ^ group.length :=
          fun group within => numeral_numeralValue
            (fun c mem => List.all_eq_true.mp digits c (within mem))
        obtain ⟨yearText, yearFits⟩ := read [y₀, y₁, y₂, y₃] (by simp)
        obtain ⟨millisText, millisFits⟩ := read [f₀, f₁, f₂] (by simp)
        have four : decimal [y₀, y₁, y₂, y₃] ≤ 9999 := by
          have fits : decimal [y₀, y₁, y₂, y₃] < 10 ^ 4 := yearFits
          omega
        have three : decimal [f₀, f₁, f₂] ≤ 999 := by
          have fits : decimal [f₀, f₁, f₂] < 10 ^ 3 := millisFits
          omega
        obtain ⟨monthFirst, monthLast⟩ := month_of_length
          (Nat.le_trans (Nat.one_le_iff_ne_zero.mpr day) dayLast)
        let instant : Instant :=
          { date := ⟨decimal [y₀, y₁, y₂, y₃], decimal [m₀, m₁], decimal [d₀, d₁], monthFirst,
              monthLast, Nat.one_le_iff_ne_zero.mpr day, dayLast⟩
            hour := decimal [h₀, h₁], minute := decimal [n₀, n₁], second := decimal [s₀, s₁]
            millis := decimal [f₀, f₁, f₂], hourLast := hour, minuteLast := minute
            secondLast := second, millisLast := three }
        have text : instant.text = [y₀, y₁, y₂, y₃, '-', m₀, m₁, '-', d₀, d₁, 'T', h₀, h₁, ':',
            n₀, n₁, ':', s₀, s₁, '.', f₀, f₁, f₂, 'Z'] := by
          change numeral 4 (decimal [y₀, y₁, y₂, y₃]) ++ '-' :: (numeral 2 (decimal [m₀, m₁]) ++
            '-' :: (numeral 2 (decimal [d₀, d₁]) ++ 'T' :: (numeral 2 (decimal [h₀, h₁]) ++
              ':' :: (numeral 2 (decimal [n₀, n₁]) ++ ':' :: (numeral 2 (decimal [s₀, s₁]) ++
                '.' :: (numeral 3 (decimal [f₀, f₁, f₂]) ++ ['Z'])))))) = _
          rw [show numeral 4 (decimal [y₀, y₁, y₂, y₃]) = _ from yearText,
            show numeral 2 (decimal [m₀, m₁]) = _ from (read [m₀, m₁] (by simp)).1,
            show numeral 2 (decimal [d₀, d₁]) = _ from (read [d₀, d₁] (by simp)).1,
            show numeral 2 (decimal [h₀, h₁]) = _ from (read [h₀, h₁] (by simp)).1,
            show numeral 2 (decimal [n₀, n₁]) = _ from (read [n₀, n₁] (by simp)).1,
            show numeral 2 (decimal [s₀, s₁]) = _ from (read [s₀, s₁] (by simp)).1,
            show numeral 3 (decimal [f₀, f₁, f₂]) = _ from millisText]
          rfl
        refine ⟨instant, ?_, ?_, four⟩
        · rw [text, ← shape, String.ofList_toList]
        · rw [shape]
          rfl
  · cases accepted

-----------------------------------------------------------------------------------------
-- Agreement
-----------------------------------------------------------------------------------------

/-- Clock readings and their texts agree: the readings from the epoch on whose year has four
digits are printed as the texts of their instants, which the validator accepts; all others
are refused without overflow. The texts are ordered as the readings are, and every accepted
text from 1970 on is that of exactly one reading.
-/
theorem timestamps_agree_with_validator
    : (∀ time : Timestamp, 0 ≤ time → I64.InRange time →
        ∃ instant : Instant, instant.unixMillis = time ∧ 1970 ≤ instant.date.year
          ∧ if instant.date.year ≤ 9999 then
              toRfc3339Utc time = .ok (String.ofList instant.text)
                ∧ validateReceivedAt (String.ofList instant.text) = .ok ()
            else toRfc3339Utc time = .error (.error yearRangeError))
      ∧ (∀ first second : Timestamp, I64.InRange first → I64.InRange second →
        ∀ a b, toRfc3339Utc first = .ok a → toRfc3339Utc second = .ok b →
          (first < second ↔ a < b))
      ∧ ∀ value, validateReceivedAt value = .ok () → 1970 ≤ decimal (value.toList.take 4) →
        ∃! time : Timestamp, I64.InRange time ∧ toRfc3339Utc time = .ok value := by
  have printed : ∀ time : Timestamp, I64.InRange time → ∀ text, toRfc3339Utc time = .ok text →
      0 ≤ time ∧ ∃ instant : Instant, instant.unixMillis = time ∧ instant.date.year ≤ 9999
        ∧ text = String.ofList instant.text := by
    intro time range text done
    have nonnegative : 0 ≤ time := by
      by_contra negative
      rw [toRfc3339Utc, if_pos (Int.not_le.mp negative)] at done
      cases done
    obtain ⟨millis, rfl⟩ := Int.eq_ofNat_of_zero_le nonnegative
    rw [toRfc3339Utc_eq millis (Int.ofNat_le.mp range.2)] at done
    split at done
    · cases done
      exact ⟨nonnegative, instantOf millis, unixMillis_instantOf millis, ‹_›, rfl⟩
    · cases done
  refine ⟨?_, ?_, ?_⟩
  · intro time nonnegative range
    obtain ⟨millis, rfl⟩ := Int.eq_ofNat_of_zero_le nonnegative
    have late : 1970 ≤ (instantOf millis).date.year := by
      rw [← Instant.epoch_le_iff]
      exact (Nat.le_add_right _ _).trans_eq (number_civilDate _).symm
    refine ⟨instantOf millis, unixMillis_instantOf millis, late, ?_⟩
    rw [toRfc3339Utc_eq millis (Int.ofNat_le.mp range.2)]
    split
    · exact ⟨rfl, validateReceivedAt_text _ (by omega) ‹_›⟩
    · rfl
  · intro first second firstRange secondRange a b firstText secondText
    obtain ⟨-, i, rfl, iYear, rfl⟩ := printed first firstRange a firstText
    obtain ⟨-, j, rfl, jYear, rfl⟩ := printed second secondRange b secondText
    rw [String.lt_iff_toList_lt, String.toList_ofList, String.toList_ofList]
    refine ⟨Instant.text_lt (Nat.lt_succ_of_le jYear), fun less => ?_⟩
    by_contra other
    rcases Int.lt_or_eq_of_le (Int.not_lt.mp other) with later | same
    · exact List.lt_asymm less (Instant.text_lt (Nat.lt_succ_of_le iYear) later)
    · rw [Instant.unixMillis_injective same] at less
      exact List.lt_irrefl _ less
  · intro value accepted late
    obtain ⟨instant, rfl, year, four⟩ := instant_of_validateReceivedAt accepted
    rw [← year, ← Instant.epoch_le_iff] at late
    obtain ⟨first, last⟩ := instant.unixMillis_bounds
    obtain ⟨millis, same⟩ := Int.eq_ofNat_of_zero_le
      (show 0 ≤ instant.unixMillis by omega)
    have few : instant.date.number < 3652425 := by
      have below := instant.date.number_lt_year
      have most : daysBeforeYear (instant.date.year + 1) ≤ daysBeforeYear 10000 :=
        daysBeforeYear_mono (by omega)
      have whole := daysBeforeYear_eq 10000
      omega
    have range : I64.InRange instant.unixMillis := by
      refine ⟨by omega, ?_⟩
      unfold Instant.epoch at last
      omega
    refine ⟨instant.unixMillis, ⟨range, ?_⟩, ?_⟩
    · have own := eq_instantOf same
      rw [same, toRfc3339Utc_eq millis (by have := range.2; omega), ← own, if_pos four]
    · rintro time ⟨other, done⟩
      obtain ⟨-, instant', rfl, four', text⟩ := printed time other _ done
      have sameText : instant.text = instant'.text := by
        rw [← String.toList_ofList (l := instant.text), text, String.toList_ofList]
      rcases Int.lt_trichotomy instant'.unixMillis instant.unixMillis with less | equal | more
      · have before := Instant.text_lt (Nat.lt_succ_of_le four) less
        rw [sameText] at before
        exact absurd before (List.lt_irrefl _)
      · exact equal
      · have before := Instant.text_lt (Nat.lt_succ_of_le four') more
        rw [sameText] at before
        exact absurd before (List.lt_irrefl _)

/-- The last millisecond of the year 9999, and the first one that has no text. -/
example : toRfc3339Utc 253402300799999 = .ok "9999-12-31T23:59:59.999Z"
    ∧ toRfc3339Utc 253402300800000 = .error (.error yearRangeError) := by
  decide +kernel

end Codrik.Runtime
