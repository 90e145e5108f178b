import Codrik.Encoding.Decimal
import Codrik.Time.Calendar

/-! Instants of UTC to the millisecond, their distance from the Unix epoch, and their texts. -/

namespace Codrik.Time

open Codrik.Encoding

/-- A date and a time of day. -/
structure Instant where
  date : Date
  hour : Nat
  minute : Nat
  second : Nat
  millis : Nat
  hourLast : hour ≤ 23
  minuteLast : minute ≤ 59
  secondLast : second ≤ 59
  millisLast : millis ≤ 999
deriving DecidableEq

namespace Instant

/-- The number of 1970-01-01. -/
def epoch : Nat := 719528

/-- The milliseconds of an instant since the Unix epoch. -/
def unixMillis (instant : Instant) : Int :=
  ((instant.date.number : Int) - epoch) * 86400000 + instant.hour * 3600000
    + instant.minute * 60000 + instant.second * 1000 + instant.millis

/-- `YYYY-MM-DDThh:mm:ss.mmmZ` -/
def text (instant : Instant) : List Char :=
  numeral 4 instant.date.year ++ '-' :: (numeral 2 instant.date.month ++ '-' ::
    (numeral 2 instant.date.day ++ 'T' :: (numeral 2 instant.hour ++ ':' ::
      (numeral 2 instant.minute ++ ':' :: (numeral 2 instant.second ++ '.' ::
        (numeral 3 instant.millis ++ ['Z']))))))

theorem ext_fields {a b : Instant} (date : a.date = b.date) (hour : a.hour = b.hour)
    (minute : a.minute = b.minute) (second : a.second = b.second) (millis : a.millis = b.millis)
    : a = b := by
  cases a
  cases b
  cases date
  cases hour
  cases minute
  cases second
  cases millis
  rfl

theorem daysBeforeYear_epoch : daysBeforeYear 1970 = epoch := by
  have years := daysBeforeYear_eq 1970
  rw [epoch]
  omega

/-- The epoch is the first of January 1970. -/
theorem number_epoch {date : Date} (year : date.year = 1970) (month : date.month = 1)
    (day : date.day = 1)
    : date.number = epoch := by
  have january : daysBeforeMonth 1970 1 = 0 := rfl
  rw [Date.number, year, month, day, january, daysBeforeYear_epoch]
  rfl

/-- The instants from the epoch on are those of 1970 and later. -/
theorem epoch_le_iff (date : Date) : epoch ≤ date.number ↔ 1970 ≤ date.year := by
  have start := daysBeforeYear_epoch
  have below := date.number_lt_year
  constructor
  · intro late
    by_contra early
    have before : daysBeforeYear (date.year + 1) ≤ daysBeforeYear 1970 :=
      daysBeforeYear_mono (by omega)
    omega
  · intro late
    have before : daysBeforeYear 1970 ≤ daysBeforeYear date.year := daysBeforeYear_mono late
    rw [Date.number]
    omega

/-- The time of day is less than a day. -/
theorem unixMillis_bounds (instant : Instant)
    : ((instant.date.number : Int) - epoch) * 86400000 ≤ instant.unixMillis
      ∧ instant.unixMillis < ((instant.date.number : Int) - epoch + 1) * 86400000 := by
  have hour := instant.hourLast
  have minute := instant.minuteLast
  have second := instant.secondLast
  have millis := instant.millisLast
  unfold unixMillis
  omega

/-- An instant is determined by its distance from the epoch. -/
theorem unixMillis_injective {a b : Instant} (same : a.unixMillis = b.unixMillis) : a = b := by
  obtain ⟨firstA, lastA⟩ := a.unixMillis_bounds
  obtain ⟨firstB, lastB⟩ := b.unixMillis_bounds
  have date : a.date = b.date := Date.number_injective (by omega)
  have hourA := a.hourLast
  have minuteA := a.minuteLast
  have secondA := a.secondLast
  have millisA := a.millisLast
  have hourB := b.hourLast
  have minuteB := b.minuteLast
  have secondB := b.secondLast
  have millisB := b.millisLast
  unfold unixMillis at same
  rw [date] at same
  refine ext_fields date ?_ ?_ ?_ ?_ <;> omega

/-- Instants of four-digit years that come first have texts that come first. -/
theorem text_lt {a b : Instant} (four : b.date.year < 10000) (less : a.unixMillis < b.unixMillis)
    : a.text < b.text := by
  have monthB := b.date.monthLast
  have dayB : b.date.day < 100 := by
    have last := b.date.dayLast
    have longest : monthLength b.date.year b.date.month ≤ 31 := by
      unfold monthLength
      split <;> try split
      all_goals omega
    omega
  have hourA := a.hourLast
  have minuteA := a.minuteLast
  have secondA := a.secondLast
  have millisA := a.millisLast
  have hourB := b.hourLast
  have minuteB := b.minuteLast
  have secondB := b.secondLast
  have millisB := b.millisLast
  unfold text
  rcases Date.before_or a.date b.date with before | same | after
  · rcases before with year | ⟨year, month | ⟨month, day⟩⟩
    · exact numeral_lt year four _ _
    · rw [year]
      refine List.append_left_lt (List.cons_lt_cons_self.mpr ?_)
      exact numeral_lt month (by omega) _ _
    · rw [year, month]
      refine List.append_left_lt (List.cons_lt_cons_self.mpr
        (List.append_left_lt (List.cons_lt_cons_self.mpr ?_)))
      exact numeral_lt day dayB _ _
  · rw [same]
    unfold unixMillis at less
    rw [same] at less
    refine List.append_left_lt (List.cons_lt_cons_self.mpr (List.append_left_lt
      (List.cons_lt_cons_self.mpr (List.append_left_lt (List.cons_lt_cons_self.mpr ?_)))))
    rcases Nat.lt_trichotomy a.hour b.hour with hour | hour | hour
    · exact numeral_lt hour (by omega) _ _
    · rw [hour]
      refine List.append_left_lt (List.cons_lt_cons_self.mpr ?_)
      rcases Nat.lt_trichotomy a.minute b.minute with minute | minute | minute
      · exact numeral_lt minute (by omega) _ _
      · rw [minute]
        refine List.append_left_lt (List.cons_lt_cons_self.mpr ?_)
        rcases Nat.lt_trichotomy a.second b.second with second | second | second
        · exact numeral_lt second (by omega) _ _
        · rw [second]
          refine List.append_left_lt (List.cons_lt_cons_self.mpr ?_)
          exact numeral_lt (by omega) (by omega) _ _
        · omega
      · omega
    · omega
  · obtain ⟨first, -⟩ := a.unixMillis_bounds
    obtain ⟨-, last⟩ := b.unixMillis_bounds
    have later := after.number_lt
    omega

end Instant

end Codrik.Time
