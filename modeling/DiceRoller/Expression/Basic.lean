/-!
# Dice expressions

What one expression asks for: a number of equal dice, a modifier that keeps some of them or
counts successes among them, and a constant to add. The counts and amounts are any integers,
so that an expression can be rolled that no text denotes.
-/

namespace DiceRoller

inductive Die
  /-- Faces from 1 to `sides`. -/
  | numbered (sides : Int)
  /-- Faces -1, 0 and 1. -/
  | fate
  deriving DecidableEq, Repr

inductive Selection
  | keepHighest
  | keepLowest
  | dropHighest
  | dropLowest
  deriving DecidableEq, Repr

inductive Counting
  /-- Every die is rolled once. -/
  | versus
  /-- A hit is rolled again and added to its die. -/
  | exploding
  /-- A hit brings one more die into the roll. -/
  | reroll
  deriving DecidableEq, Repr

inductive Modifier
  | select (rule : Selection) (amount : Int)
  | count (rule : Counting) (threshold : Int)
  deriving DecidableEq, Repr

structure Expression where
  count : Int
  die : Die
  modifier : Option Modifier
  constant : Option Int
  deriving DecidableEq, Repr

namespace Expression

def bonus (e : Expression) : Int := e.constant.getD 0

def hasSelection (e : Expression) : Bool := e.modifier matches some (.select ..)

def hasCounting (e : Expression) : Bool := e.modifier matches some (.count ..)

end Expression

end DiceRoller
