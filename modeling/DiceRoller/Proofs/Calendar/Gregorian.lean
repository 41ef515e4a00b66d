import DiceRoller.Calendar.Date
import Mathlib.Order.Basic
import Mathlib.Tactic.IntervalCases

/-!
# The Gregorian calendar

The calendar as its rules have it: every month has its length, and every fourth year a leap day,
but of the years that end a century only every fourth. By these rules each date has a number among
the days. The date that is computed for a number is one of the calendar and has that number
(`ofDays_spec`), and as a later date has a higher number (`Valid.dayNumber_lt`), no other date has.
-/

namespace DiceRoller.Date

def IsLeap (year : Int) : Prop := 4 ∣ year ∧ (100 ∣ year → 400 ∣ year)

instance (year : Int) : Decidable (IsLeap year) := inferInstanceAs (Decidable (_ ∧ _))

def leapDays (year : Int) : Nat := if IsLeap year then 1 else 0

def yearLength (year : Int) : Nat := 365 + leapDays year

/-- There is no month 0 and none after 12. -/
def monthLength (year : Int) : Nat → Nat
  | 2 => 28 + leapDays year
  | 4 | 6 | 9 | 11 => 30
  | 1 | 3 | 5 | 7 | 8 | 10 | 12 => 31
  | _ => 0

/-- The days of a year before a month. -/
def daysBeforeMonth (year : Int) : Nat → Nat
  | 0 => 0
  | month + 1 => daysBeforeMonth year month + monthLength year month

/-- The days from the start of year 1 to that of a year. -/
def daysBeforeYear (year : Int) : Int :=
  365 * (year - 1) + (year - 1) / 4 - (year - 1) / 100 + (year - 1) / 400

structure Valid (date : Date) : Prop where
  month_pos : 0 < date.month
  month_le : date.month ≤ 12
  day_pos : 0 < date.day
  day_le : date.day ≤ monthLength date.year date.month

/-- The number of a date among the days, where the first of January 1970 has number 0. -/
def dayNumber (date : Date) : Int :=
  daysBeforeYear date.year - daysBeforeYear 1970 + daysBeforeMonth date.year date.month +
    date.day - 1

theorem leapDays_of_isLeap {year : Int} (h : IsLeap year) : leapDays year = 1 := if_pos h

theorem leapDays_le (year : Int) : leapDays year ≤ 1 := by
  unfold leapDays
  split <;> decide

theorem monthLength_le (year : Int) (month : Nat) : monthLength year month ≤ 31 := by
  have leap := leapDays_le year
  unfold monthLength
  split <;> omega

theorem daysBeforeMonth_thirteen (year : Int) : daysBeforeMonth year 13 = yearLength year := by
  simp only [daysBeforeMonth, monthLength, yearLength]
  omega

/-- The years follow each other without a gap. -/
theorem daysBeforeYear_add_one (year : Int) :
    daysBeforeYear (year + 1) = daysBeforeYear year + yearLength year := by
  unfold daysBeforeYear yearLength leapDays
  by_cases leap : IsLeap year
  · rw [if_pos leap]
    unfold IsLeap at leap
    omega
  · rw [if_neg leap]
    unfold IsLeap at leap
    omega

theorem daysBeforeYear_mono {a b : Int} (h : a ≤ b) : daysBeforeYear a ≤ daysBeforeYear b := by
  rcases h.eq_or_lt with rfl | less
  · rfl
  · unfold daysBeforeYear
    omega

theorem daysBeforeMonth_mono (year : Int) {a b : Nat} (h : a ≤ b) :
    daysBeforeMonth year a ≤ daysBeforeMonth year b := by
  induction h with
  | refl => exact Nat.le_refl _
  | step _ ih => exact ih.trans (Nat.le_add_right _ _)

section Order

variable {a b : Date} (ha : a.Valid) (hb : b.Valid)

include ha in
theorem Valid.dayNumber_lt_next_month :
    a.dayNumber < daysBeforeYear a.year - daysBeforeYear 1970 +
      daysBeforeMonth a.year (a.month + 1) := by
  have inMonth := ha.day_le
  unfold dayNumber
  rw [daysBeforeMonth]
  omega

include ha in
theorem Valid.dayNumber_lt_next_year :
    a.dayNumber < daysBeforeYear (a.year + 1) - daysBeforeYear 1970 := by
  have inMonth := ha.dayNumber_lt_next_month
  have inYear : daysBeforeMonth a.year (a.month + 1) ≤ daysBeforeMonth a.year 13 :=
    daysBeforeMonth_mono a.year (Nat.succ_le_succ ha.month_le)
  rw [daysBeforeMonth_thirteen] at inYear
  rw [daysBeforeYear_add_one]
  omega

include hb in
theorem Valid.year_le_dayNumber : daysBeforeYear b.year - daysBeforeYear 1970 ≤ b.dayNumber := by
  have first := hb.day_pos
  unfold dayNumber
  omega

include ha hb

/-- A later date has a higher number. -/
theorem Valid.dayNumber_lt (h : a.year < b.year ∨ a.year = b.year ∧
    (a.month < b.month ∨ a.month = b.month ∧ a.day < b.day)) : a.dayNumber < b.dayNumber := by
  rcases h with years | ⟨year, months | ⟨month, days⟩⟩
  · have before := ha.dayNumber_lt_next_year
    have between := daysBeforeYear_mono (Int.add_one_le_iff.mpr years)
    have after := hb.year_le_dayNumber
    omega
  · have before := ha.dayNumber_lt_next_month
    have between : daysBeforeMonth a.year (a.month + 1) ≤ daysBeforeMonth a.year b.month :=
      daysBeforeMonth_mono a.year months
    have first := hb.day_pos
    simp only [dayNumber, year] at before between ⊢
    omega
  · simp only [dayNumber, year, month]
    omega

end Order

/-- A day of a cycle is a day of one of its years. Only the last year of four has 366 days, and
in a century that is not the last of the cycle only if another four years follow. -/
theorem exists_yearOfCycle {day : Nat} (h : day < daysPerCycle) :
    ∃ century four year inYear, yearOfCycle day = (100 * century + 4 * four + year, inYear) ∧
      day = 36524 * century + 1461 * four + 365 * year + inYear ∧
      century ≤ 3 ∧ four ≤ 24 ∧ year ≤ 3 ∧ inYear ≤ 365 ∧
      (inYear = 365 → year = 3 ∧ (four < 24 ∨ century = 3)) := by
  simp only [daysPerCycle, daysPerCentury, daysPerFourYears, daysPerYear] at h
  obtain ⟨century, hc⟩ : ∃ century, century = min 3 (day / 36524) := ⟨_, rfl⟩
  obtain ⟨inCentury, hic⟩ : ∃ inCentury, inCentury = day - century * 36524 := ⟨_, rfl⟩
  have centuries : century ≤ 3 ∧ day = 36524 * century + inCentury ∧ inCentury ≤ 36524 ∧
      (inCentury = 36524 → century = 3) := by omega
  obtain ⟨four, hf⟩ : ∃ four, four = inCentury / 1461 := ⟨_, rfl⟩
  obtain ⟨inFour, hif⟩ : ∃ inFour, inFour = inCentury - four * 1461 := ⟨_, rfl⟩
  have fours : four ≤ 24 ∧ inCentury = 1461 * four + inFour ∧ inFour ≤ 1460 ∧
      (inFour = 1460 → four < 24 ∨ century = 3) := by omega
  obtain ⟨year, hy⟩ : ∃ year, year = min 3 (inFour / 365) := ⟨_, rfl⟩
  have years : year ≤ 3 ∧ 365 * year ≤ inFour ∧ inFour - year * 365 ≤ 365 ∧
      (inFour - year * 365 = 365 → year = 3) := by omega
  refine ⟨century, four, year, inFour - year * 365, ?_, by omega, by omega, by omega, by omega,
    by omega, by omega⟩
  subst hc hic hf hif hy
  rfl

/-- The days before a month in a year that starts with March as its month 0. -/
def daysFromMarch (month : Nat) : Nat := (153 * month + 2) / 5

theorem exists_monthOfYear {day : Nat} (h : day ≤ 365) :
    ∃ month inMonth, monthOfYear day = (month, inMonth) ∧ month ≤ 11 ∧
      day = daysFromMarch month + inMonth ∧ day < daysFromMarch (month + 1) := by
  refine ⟨(5 * day + 2) / 153, day - daysFromMarch ((5 * day + 2) / 153), rfl, ?_⟩
  unfold daysFromMarch
  omega

/-- The year of a cycle starts in March, so that the first of January within it is that of the
next year. -/
theorem daysBeforeYear_of_cycle (cycle : Int) {century four year : Nat} (hf : four ≤ 24)
    (hy : year ≤ 3) (hc : century ≤ 3) :
    daysBeforeYear (400 * cycle + (100 * century + 4 * four + year : Nat) + 1) =
      146097 * cycle + 36524 * century + 1461 * four + 365 * year := by
  unfold daysBeforeYear
  omega

theorem daysBeforeMonth_add_three (year : Int) {month : Nat} (h : month ≤ 10) :
    daysBeforeMonth year (month + 3) = daysFromMarch month + 59 + leapDays year := by
  unfold daysFromMarch
  interval_cases month <;> simp only [daysBeforeMonth, monthLength] <;> omega

section Months

variable (year : Int) {month inMonth : Nat}
  (inside : daysFromMarch month + inMonth < daysFromMarch (month + 1))

include inside

theorem spec_of_march_to_december (early : month < 10) :
    Valid ⟨year, month + 3, inMonth + 1⟩ ∧
      dayNumber ⟨year, month + 3, inMonth + 1⟩ =
        daysBeforeYear (year + 1) + (daysFromMarch month + inMonth : Nat) - 306 -
          daysBeforeYear 1970 := by
  have start := daysBeforeMonth_add_three year (Nat.le_of_lt early)
  have next : daysBeforeMonth year (month + 1 + 3) = _ := daysBeforeMonth_add_three year early
  have length : daysBeforeMonth year (month + 1 + 3) =
      daysBeforeMonth year (month + 3) + monthLength year (month + 3) := rfl
  have day : inMonth + 1 ≤ monthLength year (month + 3) := by omega
  constructor
  · exact ⟨Nat.succ_pos _, Nat.succ_le_of_lt (Nat.add_lt_add_right early 2), Nat.succ_pos _, day⟩
  · rw [daysBeforeYear_add_one, yearLength]
    simp only [dayNumber, start]
    omega

/-- Only the length of the year says where its February ends. -/
theorem spec_of_january_february (late : 10 ≤ month) (last : month ≤ 11)
    (inYear : daysFromMarch month + inMonth < yearLength year) :
    Valid ⟨year, month - 9, inMonth + 1⟩ ∧
      dayNumber ⟨year, month - 9, inMonth + 1⟩ =
        daysBeforeYear year + (daysFromMarch month + inMonth : Nat) - 306 -
          daysBeforeYear 1970 := by
  have length : monthLength year 1 = 31 ∧ monthLength year 2 = 28 + leapDays year := ⟨rfl, rfl⟩
  have start : daysBeforeMonth year 1 = 0 ∧ daysBeforeMonth year 2 = 31 := ⟨rfl, rfl⟩
  unfold daysFromMarch at *
  unfold yearLength at inYear
  interval_cases month
  · have day : inMonth + 1 ≤ monthLength year 1 := by omega
    refine ⟨⟨by simp, by simp, Nat.succ_pos _, day⟩, ?_⟩
    simp only [dayNumber, start]
    omega
  · have day : inMonth + 1 ≤ monthLength year 2 := by omega
    refine ⟨⟨by simp, by simp, Nat.succ_pos _, day⟩, ?_⟩
    simp only [dayNumber, start]
    omega

end Months

/-- The date that is computed is one of the calendar, and it is the one with the number given. -/
theorem ofDays_spec (days : Int) : (ofDays days).Valid ∧ (ofDays days).dayNumber = days := by
  have small : ((days + epoch) % daysPerCycle).toNat < daysPerCycle := by
    simp only [daysPerCycle, daysPerCentury, daysPerFourYears, daysPerYear]
    omega
  obtain ⟨century, four, year, inYear, hyear, cut, hc, hf, hy, last, leap⟩ :=
    exists_yearOfCycle small
  obtain ⟨month, inMonth, hmonth, le, parts, inside⟩ := exists_monthOfYear last
  have number := daysBeforeYear_of_cycle ((days + epoch) / daysPerCycle) hf hy hc
  have whole : days + epoch = 146097 * ((days + epoch) / daysPerCycle) +
      ((days + epoch) % daysPerCycle).toNat := by
    simp only [daysPerCycle, daysPerCentury, daysPerFourYears, daysPerYear]
    omega
  have start : epoch = daysBeforeYear 1970 + 306 := by decide
  unfold ofDays
  simp only [hyear, hmonth]
  generalize (days + epoch) / daysPerCycle = cycle at *
  generalize ((days + epoch) % daysPerCycle).toNat = day at *
  rw [parts] at inside
  by_cases early : month < 10
  · rw [if_pos early]
    have ⟨valid, found⟩ := spec_of_march_to_december
      (400 * cycle + (100 * century + 4 * four + year : Nat)) inside early
    exact ⟨valid, by rw [found]; omega⟩
  · rw [if_neg early]
    -- A year from March with 366 days ends with the leap day of the next year.
    have within : daysFromMarch month + inMonth <
        yearLength (400 * cycle + (100 * century + 4 * four + year : Nat) + 1) := by
      rw [← parts, yearLength]
      by_cases leapDay : inYear = 365
      · obtain ⟨rfl, centuries⟩ := leap leapDay
        rw [leapDays_of_isLeap ⟨by omega, by omega⟩]
        omega
      · omega
    have ⟨valid, found⟩ := spec_of_january_february _ inside (Nat.le_of_not_lt early) le within
    exact ⟨valid, by rw [found]; omega⟩

example : ofDays 0 = ⟨1970, 1, 1⟩ := by decide

end DiceRoller.Date
