import DiceRoller.Calendar.Date

/-!
# Moments

A second of universal time as date and time of day, and the two ways it is written: the
stamp of an answer, whose year has four digits, and the time of a journal line, whose year is
written as it is. No local time stands between them: what is said of a journal line holds
where the clock on the wall shows universal time.
-/

namespace DiceRoller

structure Moment where
  date : Date
  hour : Nat
  minute : Nat
  second : Nat
  deriving DecidableEq, Repr

namespace Moment

/-- The moment a number of seconds after the start of 1970. -/
def ofSeconds (seconds : Int) : Moment :=
  let rest := (seconds % 86400).toNat
  ⟨Date.ofDays (seconds / 86400), rest / 3600, rest % 3600 / 60, rest % 60⟩

def padded (width n : Nat) : List Char :=
  let digits := Nat.toDigits 10 n
  List.replicate (width - digits.length) '0' ++ digits

def clockChars (moment : Moment) : List Char :=
  padded 2 moment.hour ++ ':' :: padded 2 moment.minute ++ ':' :: padded 2 moment.second

def dayChars (moment : Moment) : List Char :=
  '-' :: padded 2 moment.date.month ++ '-' :: padded 2 moment.date.day

def stampChars (moment : Moment) : List Char :=
  padded 4 moment.date.year.toNat ++ moment.dayChars ++ 'T' :: moment.clockChars ++ ['Z']

def stamp (moment : Moment) : String := String.ofList moment.stampChars

/-- The moment as it is, with no offset to a local time. -/
def journalTime (moment : Moment) : String :=
  toString moment.date.year ++ String.ofList (moment.dayChars ++ ' ' :: moment.clockChars)

end Moment

/-- A reading of a clock, of which the stamp shows the seconds alone. -/
structure Clock where
  seconds : Int
  micros : Nat
  deriving DecidableEq, Repr

def Clock.stamp (clock : Clock) : String := (Moment.ofSeconds clock.seconds).stamp

end DiceRoller
