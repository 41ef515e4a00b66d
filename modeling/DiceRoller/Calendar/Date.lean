/-!
# Dates of the Gregorian calendar

The calendar runs in both directions without end and repeats every 400 years. Inside such a
cycle years are counted from March, so that a leap day is the last day of its year, its
century and its cycle, and the short months stand at the end.
-/

namespace DiceRoller

structure Date where
  year : Int
  month : Nat
  day : Nat
  deriving DecidableEq, Repr

namespace Date

def daysPerYear : Nat := 365

def daysPerFourYears : Nat := 4 * daysPerYear + 1

def daysPerCentury : Nat := 25 * daysPerFourYears - 1

def daysPerCycle : Nat := 4 * daysPerCentury + 1

/-- Days from the first of March of year 0 to the first of January of year 1970. -/
def epoch : Int := 719468

/-- The year of a cycle, counted from March, that holds its given day, and the day of that
year. -/
def yearOfCycle (day : Nat) : Nat × Nat :=
  let century := min 3 (day / daysPerCentury)
  let inCentury := day - century * daysPerCentury
  let four := inCentury / daysPerFourYears
  let inFour := inCentury - four * daysPerFourYears
  let year := min 3 (inFour / daysPerYear)
  (100 * century + 4 * four + year, inFour - year * daysPerYear)

/-- The month, counted from March as 0, that holds the given day of a year, and the day of
that month from 0. Five months from March have 153 days, and so have the five after them. -/
def monthOfYear (day : Nat) : Nat × Nat :=
  let month := (5 * day + 2) / 153
  (month, day - (153 * month + 2) / 5)

/-- The date a number of days after the first of January 1970. -/
def ofDays (days : Int) : Date :=
  let cycle := (days + epoch) / daysPerCycle
  let year := yearOfCycle ((days + epoch) % daysPerCycle).toNat
  let month := monthOfYear year.2
  let started := 400 * cycle + year.1
  if month.1 < 10 then ⟨started, month.1 + 3, month.2 + 1⟩
  else ⟨started + 1, month.1 - 9, month.2 + 1⟩

end Date

end DiceRoller
