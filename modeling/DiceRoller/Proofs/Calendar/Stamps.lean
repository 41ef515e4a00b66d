import DiceRoller.Proofs.Calendar.Columns
import DiceRoller.Proofs.Calendar.Gregorian
import Mathlib.Data.String.Basic

/-!
# Stamps tell the second

The stamp of a clock in the years from 1 to 9999 has 20 characters, from which the second that the
clock shows can be read back as a date of the calendar and a time of day. The order of two stamps as
texts is the order of the seconds (`stamp_exact`).
-/

namespace DiceRoller

namespace Moment

structure Valid (moment : Moment) : Prop where
  date : moment.date.Valid
  hour : moment.hour < 24
  minute : moment.minute < 60
  second : moment.second < 60

/-- The seconds from the start of 1970 to the moment. -/
def seconds (moment : Moment) : Int :=
  86400 * moment.date.dayNumber + 3600 * moment.hour + 60 * moment.minute + moment.second

def startOfYear (year : Int) : Moment := ⟨⟨year, 1, 1⟩, 0, 0, 0⟩

theorem seconds_startOfYear (year : Int) : (startOfYear year).seconds =
    86400 * (Date.daysBeforeYear year - Date.daysBeforeYear 1970) := by
  simp [startOfYear, seconds, Date.dayNumber, Date.daysBeforeMonth, Date.monthLength]

theorem ofSeconds_spec (s : Int) : (ofSeconds s).Valid ∧ (ofSeconds s).seconds = s := by
  have ⟨date, number⟩ := Date.ofDays_spec (s / 86400)
  have rest : (s % 86400).toNat < 86400 := by omega
  have hour : (ofSeconds s).hour = (s % 86400).toNat / 3600 := rfl
  have minute : (ofSeconds s).minute = (s % 86400).toNat % 3600 / 60 := rfl
  have second : (ofSeconds s).second = (s % 86400).toNat % 60 := rfl
  have day : (ofSeconds s).date.dayNumber = s / 86400 := number
  refine ⟨⟨date, by omega, by omega, by omega⟩, ?_⟩
  unfold seconds
  omega

/-- The columns of a stamp, which looks like `YYYY-MM-DDTHH:MM:SSZ`. -/
def stampColumns : List Column :=
  [⟨4, '-'⟩, ⟨2, '-'⟩, ⟨2, 'T'⟩, ⟨2, ':'⟩, ⟨2, ':'⟩, ⟨2, 'Z'⟩]

def numbers (moment : Moment) : List Nat :=
  [moment.date.year.toNat, moment.date.month, moment.date.day, moment.hour, moment.minute,
    moment.second]

def ofNumbers? : List Nat → Option Moment
  | [year, month, day, hour, minute, second] => some ⟨⟨year, month, day⟩, hour, minute, second⟩
  | _ => none

/-- The moment that a stamp tells. -/
def ofStamp? (stamp : String) : Option Moment :=
  (Column.read stampColumns stamp.toList).bind ofNumbers?

/-- The moments that a stamp has place for. -/
structure InStampYears (moment : Moment) : Prop extends moment.Valid where
  first : 1 ≤ moment.date.year
  last : moment.date.year ≤ 9999

theorem toList_stamp (moment : Moment) :
    moment.stamp.toList = Column.write stampColumns moment.numbers := by
  rw [stamp, String.toList_ofList]
  simp [stampChars, dayChars, clockChars, Column.write, stampColumns, numbers]

namespace InStampYears

variable {a b : Moment} (ha : a.InStampYears) (hb : b.InStampYears)

include ha in
theorem fits : Column.Fits stampColumns a.numbers := by
  have year := ha.last
  have month := ha.date.month_le
  have day := ha.date.day_le.trans (Date.monthLength_le _ _)
  have ⟨hour, minute, second⟩ := And.intro ha.hour (And.intro ha.minute ha.second)
  have four {n : Nat} (h : n < 10000) : Column.Holds ⟨4, '-'⟩ n := ⟨by decide, h⟩
  have two {n : Nat} {mark : Char} (h : n < 100) : Column.Holds ⟨2, mark⟩ n :=
    ⟨Nat.two_pos, h⟩
  exact .cons (four (by omega)) <| .cons (two (by omega)) <| .cons (two (by omega)) <|
    .cons (two (by omega)) <| .cons (two (by omega)) <| .cons (two (by omega)) .nil

include ha in
theorem ofNumbers?_numbers : ofNumbers? a.numbers = some a := by
  have year : (a.date.year.toNat : Int) = a.date.year :=
    Int.toNat_of_nonneg (Int.le_of_lt ha.first)
  simp only [numbers, ofNumbers?, year]

include ha in
theorem ofStamp?_stamp : ofStamp? a.stamp = some a := by
  rw [ofStamp?, toList_stamp, Column.read_write ha.fits, Option.bind_some, ha.ofNumbers?_numbers]

include ha in
theorem length_stamp : a.stamp.length = 20 := by
  rw [← String.length_toList, toList_stamp, Column.length_write ha.fits]
  rfl

include ha hb

theorem seconds_lt_of_numbers_lt (h : a.numbers < b.numbers) : a.seconds < b.seconds := by
  simp only [numbers, List.cons_lt_cons_iff, List.not_lt_nil, and_false, or_false] at h
  have first := ha.first
  have ⟨hour, minute, second⟩ := And.intro ha.hour (And.intro ha.minute ha.second)
  by_cases later : a.date.year < b.date.year ∨ a.date.year = b.date.year ∧
      (a.date.month < b.date.month ∨ a.date.month = b.date.month ∧ a.date.day < b.date.day)
  · have days := ha.date.dayNumber_lt hb.date later
    unfold seconds
    omega
  · have year : a.date.year = b.date.year := by omega
    have month : a.date.month = b.date.month := by omega
    have day : a.date.day = b.date.day := by omega
    -- On the same day the times of day decide.
    unfold seconds Date.dayNumber
    rw [year, month, day]
    omega

theorem numbers_lt_or_eq_or_gt : a.numbers < b.numbers ∨ a = b ∨ b.numbers < a.numbers := by
  rcases lt_trichotomy a.numbers b.numbers with less | same | more
  · exact Or.inl less
  · refine Or.inr (Or.inl (Option.some.inj ?_))
    rw [← ha.ofNumbers?_numbers, same, hb.ofNumbers?_numbers]
  · exact Or.inr (Or.inr more)

theorem stamp_lt_of_seconds_lt (h : a.seconds < b.seconds) : a.stamp < b.stamp := by
  rw [String.lt_iff_toList_lt, toList_stamp, toList_stamp]
  rcases ha.numbers_lt_or_eq_or_gt hb with less | rfl | more
  · exact Column.write_lt_write ha.fits hb.fits less
  · exact absurd h (Int.lt_irrefl _)
  · exact absurd (hb.seconds_lt_of_numbers_lt ha more) (Int.lt_asymm h)

end InStampYears

end Moment

namespace Clock

/-- The clock shows a second of the years from 1 to 9999. -/
structure InStampYears (clock : Clock) : Prop where
  first : (Moment.startOfYear 1).seconds ≤ clock.seconds
  last : clock.seconds < (Moment.startOfYear 10000).seconds

theorem InStampYears.moment {clock : Clock} (h : clock.InStampYears) :
    (Moment.ofSeconds clock.seconds).InStampYears := by
  have ⟨valid, seconds⟩ := Moment.ofSeconds_spec clock.seconds
  have ⟨first, last⟩ := h
  rw [← seconds] at first last
  generalize Moment.ofSeconds clock.seconds = moment at *
  have starts := valid.date.year_le_dayNumber
  have ends := valid.date.dayNumber_lt_next_year
  have ⟨hour, minute, second⟩ := And.intro valid.hour (And.intro valid.minute valid.second)
  rw [Moment.seconds_startOfYear] at first last
  unfold Moment.seconds at first last
  refine ⟨valid, ?_, ?_⟩
  · by_contra before
    have years := Date.daysBeforeYear_mono (show moment.date.year + 1 ≤ 1 by omega)
    omega
  · by_contra after
    have years := Date.daysBeforeYear_mono (show 10000 ≤ moment.date.year by omega)
    omega

/-- A stamp has 20 characters, which are read back as a date of the calendar and a time of day.
These are of the very second that the clock shows, whatever its fraction, so that the order of
stamps as texts is that of the seconds, and equal seconds alone have equal stamps. -/
theorem stamp_exact {clock other : Clock} (h : clock.InStampYears) (h' : other.InStampYears) :
    clock.stamp.length = 20 ∧
    (∃ moment, Moment.ofStamp? clock.stamp = some moment ∧ moment.Valid ∧
      1 ≤ moment.date.year ∧ moment.date.year ≤ 9999 ∧ moment.seconds = clock.seconds) ∧
    (clock.stamp < other.stamp ↔ clock.seconds < other.seconds) ∧
    (clock.stamp = other.stamp ↔ clock.seconds = other.seconds) := by
  have seconds (c : Clock) := (Moment.ofSeconds_spec c.seconds).2
  have later {c d : Clock} (hc : c.InStampYears) (hd : d.InStampYears)
      (less : c.seconds < d.seconds) : c.stamp < d.stamp := by
    rw [← seconds c, ← seconds d] at less
    exact hc.moment.stamp_lt_of_seconds_lt hd.moment less
  have same (stamps : clock.stamp = other.stamp) : clock.seconds = other.seconds := by
    have moments : Moment.ofSeconds clock.seconds = Moment.ofSeconds other.seconds := by
      apply Option.some.inj
      rw [← h.moment.ofStamp?_stamp, ← h'.moment.ofStamp?_stamp]
      exact congrArg Moment.ofStamp? stamps
    rw [← seconds clock, moments, seconds other]
  refine ⟨h.moment.length_stamp, ?_, ⟨fun less => ?_, later h h'⟩, same, fun equal => ?_⟩
  · exact ⟨_, h.moment.ofStamp?_stamp, h.moment.toValid, h.moment.first, h.moment.last,
      seconds clock⟩
  · rcases Int.lt_trichotomy clock.seconds other.seconds with before | equal | after
    · exact before
    · rw [stamp, stamp, equal] at less
      exact absurd less (lt_irrefl _)
    · exact absurd (later h' h after) (lt_asymm less)
  · rw [stamp, stamp, equal]

theorem stamp_exact_before_1970_and_on_leap_day :
    let clock : Clock := ⟨-1, 999999⟩
    let other : Clock := ⟨951782400, 0⟩
    clock.InStampYears ∧ other.InStampYears ∧
      clock.stamp = "1969-12-31T23:59:59Z" ∧ other.stamp = "2000-02-29T00:00:00Z" ∧
      (∃ moment, Moment.ofStamp? "1969-12-31T23:59:59Z" = some moment ∧ moment.Valid ∧
        moment.seconds = -1) ∧
      "1969-12-31T23:59:59Z" < "2000-02-29T00:00:00Z" := by
  intro clock other
  have before : clock.InStampYears := ⟨by decide, by decide⟩
  have after : other.InStampYears := ⟨by decide, by decide⟩
  have stamp : clock.stamp = "1969-12-31T23:59:59Z" := by decide +kernel
  have otherStamp : other.stamp = "2000-02-29T00:00:00Z" := by decide +kernel
  obtain ⟨-, ⟨moment, told, valid, -, -, seconds⟩, order, -⟩ := stamp_exact before after
  rw [stamp] at told
  rw [stamp, otherStamp] at order
  exact ⟨before, after, stamp, otherStamp, ⟨moment, told, valid, seconds⟩, order.mpr (by decide)⟩

end Clock

end DiceRoller
