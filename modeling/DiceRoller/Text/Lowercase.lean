import DiceRoller.Text.CaseTables

/-!
# Lower case

Every character but two is lowered on its own. The dotted capital i keeps its dot as a mark
of its own. The capital sigma becomes the final sigma where it ends a word: a letter comes
before it and none after it, and the characters that the tables pass over count as neither.
-/

namespace DiceRoller.Text

def isLetter (c : Char) : Bool := letterRanges.holds c

def isPassedOver (c : Char) : Bool := passedOverRanges.holds c

def lowerChar (c : Char) : Char :=
  match lowerRuns.findSome? (·.lower? c.toNat) with
  | some code => Char.ofNat code
  | none => c

def letterFollows (rest : List Char) : Bool :=
  match rest.dropWhile isPassedOver with
  | c :: _ => isLetter c
  | [] => false

/-- Lowers a text whose last character before it, of those not passed over, is a letter or
not, as `afterLetter` tells. -/
def lowerFrom (afterLetter : Bool) : List Char → List Char
  | [] => []
  | 'Σ' :: rest =>
    (if afterLetter && !letterFollows rest then 'ς' else 'σ') :: lowerFrom true rest
  | 'İ' :: rest => 'i' :: '\u0307' :: lowerFrom true rest
  | c :: rest =>
    lowerChar c :: lowerFrom (if isPassedOver c then afterLetter else isLetter c) rest

def lower (s : List Char) : List Char := lowerFrom false s

end DiceRoller.Text
