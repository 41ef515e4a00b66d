import DiceRoller.Fault

/-!
# Decimal numerals

Reading and writing integers in decimal, with a bound on the number of digits. Leading zeros
count towards the bound and a sign does not.
-/

namespace DiceRoller

namespace Numeral

def maxDigits : Nat := 4300

/-- The least number that has too many digits. -/
def bound : Nat := Nat.pow 10 maxDigits

def value (digits : List Char) : Nat := Nat.ofDigitChars 10 digits 0

def read (digits : List Char) : Except Abort Nat :=
  if digits.length ≤ maxDigits then .ok (value digits) else .error (.longNumeral digits.length)

def write (n : Int) : Except Abort String :=
  if n.natAbs < bound then .ok (toString n) else .error .longInteger

theorem value_toDigits (n : Nat) : value (Nat.toDigits 10 n) = n :=
  Nat.ofDigitChars_ten_toDigits

theorem read_eq_ok_iff {digits : List Char} {n : Nat} :
    read digits = .ok n ↔ digits.length ≤ maxDigits ∧ value digits = n := by
  unfold read
  split <;> rename_i h <;> simp [h]

theorem write_eq_ok_iff {n : Int} {text : String} :
    write n = .ok text ↔ n.natAbs < bound ∧ toString n = text := by
  unfold write
  split <;> rename_i h <;> simp [h]

def refusal : String :=
  "Exceeds the limit (" ++ toString maxDigits ++ " digits) for integer string conversion"

def advice : String := "; use sys.set_int_max_str_digits() to increase the limit"

end Numeral

def Abort.message : Abort → String
  | .longNumeral digits =>
    Numeral.refusal ++ ": value has " ++ toString digits ++ " digits" ++ Numeral.advice
  | .longInteger => Numeral.refusal ++ Numeral.advice
  | .emptyRequest => "Empty input. Example: '2d6+3' or 'Attack: 1d20+5, 1d6'."

end DiceRoller
