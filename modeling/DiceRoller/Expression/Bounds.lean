import DiceRoller.Expression.Basic
import DiceRoller.Expression.Flaw

/-!
# Bounds on an expression

The bounds are checked in a fixed order, and the first that is broken is reported: at least
one die, no more dice than allowed, two sides, and an amount to keep or drop between one and
the count.
-/

namespace DiceRoller

def Die.tooFewSides : Die → Bool
  | .numbered sides => sides < 2
  | .fate => false

namespace Expression

def breach? (most : Int) (e : Expression) : Option Breach :=
  if e.count < 1 then some .noDie
  else if most < e.count then some (.tooManyDice e.count most)
  else if e.die.tooFewSides then some .tooFewSides
  else match e.modifier with
    | some (.select _ amount) =>
      if amount < 1 then some .amountTooSmall
      else if e.count < amount then some (.amountAboveCount amount e.count)
      else none
    | _ => none

end Expression

end DiceRoller
