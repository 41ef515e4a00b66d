import DiceRoller.Numeral
import DiceRoller.Settings.Readers
import DiceRoller.Text.Ranges

/-!
# Integers in settings

The text of an integer may have space around it, a sign, leading zeros, single underscores
between digits and a fraction of zeros. After a leading zero any number of underscores may
stand, and a minus too unless one came before. What remains of the text is its plain numeral,
which must not have too many digits. Only a text that starts with too many digits is reported
as too long. A minus does not count towards the digits.

This is how the program runs. What is proved of settings rests on less, on what is documented of
a reader of integers alone.
-/

namespace DiceRoller.Settings

/-- The white space of Unicode, to which the information separators do not belong. -/
def spaceRanges : Text.Ranges :=
  [(0x9, 0xD), (0x20, 0x20), (0x85, 0x85), (0xA0, 0xA0), (0x1680, 0x1680), (0x2000, 0x200A),
   (0x2028, 0x2029), (0x202F, 0x202F), (0x205F, 0x205F), (0x3000, 0x3000)]

def isSpace (c : Char) : Bool := spaceRanges.holds c

def trimSpace (s : List Char) : List Char :=
  ((s.dropWhile isSpace).reverse.dropWhile isSpace).reverse

/-- The sign is negative or not. -/
def splitSign : List Char → Bool × List Char
  | '-' :: s => (true, s)
  | '+' :: s => (false, s)
  | s => (false, s)

def isZeroPart (c : Char) : Bool := c == '0' || c == '_'

/-- Leaves out leading zeros and the underscores after them, but for a zero that is the whole
number or comes right before a point. -/
def dropZeros? (s : List Char) : Option (List Char) :=
  let zeros := s.takeWhile isZeroPart
  let rest := s.dropWhile isZeroPart
  match zeros.head?, rest.head? with
  | none, some c => if c.isDigit then some rest else none
  | some '0', some c =>
    if c.isDigit || c == '-' then some rest
    else if c == '.' && zeros.getLast? == some '0' then some ('0' :: rest)
    else none
  | some '0', none => if zeros.getLast? == some '0' then some ['0'] else none
  | _, _ => none

/-- Leaves out a point with at least one zero and nothing else after it. -/
def dropFraction (s : List Char) : List Char :=
  match s.dropWhile (· != '.') with
  | _ :: zeros =>
    if !zeros.isEmpty && zeros.all (· == '0') then s.takeWhile (· != '.') else s
  | [] => s

/-- Leaves out underscores, which stand one by one and inside the text. -/
def joinGroups? (s : List Char) : Option (List Char) :=
  let groups := s.splitOn '_'
  if groups.all (!·.isEmpty) then some groups.flatten else none

/-- The plain numeral of a text: a minus or none and then its digits. -/
def plainForm? (text : List Char) : Option (List Char) :=
  let (negative, s) := splitSign (trimSpace text)
  (dropZeros? s).bind fun s =>
    (joinGroups? (dropFraction s)).map fun s => if negative then '-' :: s else s

/-- The text starts with a minus or none. -/
def splitMinus : List Char → Bool × List Char
  | '-' :: s => (true, s)
  | s => (false, s)

/-- The value of a minus or none and digits, not too many, of which the first of several is no
zero. -/
def plainInteger? (s : List Char) : Option Int :=
  let (negative, digits) := splitMinus s
  if digits.isEmpty || !digits.all Char.isDigit then none
  else if 1 < digits.length && digits.head? == some '0' then none
  else if Numeral.maxDigits < digits.length then none
  else some (if negative then -(Numeral.value digits : Int) else Numeral.value digits)

/-- Too many digits at the very start of the text, after a minus or none, the first of them no
zero. -/
def startsTooLong (text : List Char) : Bool :=
  let (_, s) := splitMinus text
  s.head? != some '0' && Numeral.maxDigits < (s.takeWhile Char.isDigit).length

/-- A text that starts too long is that, whatever comes after its digits. Too many digits that
show only in the plain numeral make the text no integer. -/
def readInteger (text : List Char) : Except Misreading Int :=
  if startsTooLong text then .error .tooLong
  else
    match (plainForm? text).bind plainInteger? with
    | none => .error .notInteger
    | some n => .ok n

end DiceRoller.Settings
