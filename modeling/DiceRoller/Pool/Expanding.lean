import DiceRoller.Roll.Basic

/-!
# Expanding pools

A face that reaches the threshold is a hit, and a hit brings another roll. In an exploding
pool the roll goes onto the same die, so that a die is a chain of hits closed by a miss. In a
rerolling pool it is a die of its own. Both kinds stop without an answer when they would need
more rolls than their budget.
-/

namespace DiceRoller

variable {ε : Type}

def isHit (threshold face : Int) : Bool := threshold ≤ face

def hits (threshold : Int) (faces : List Int) : Nat := faces.countP (isHit threshold)

/-- Rolls chains until `pending` more dice are closed. The chain in progress and the chains
before it are given latest first. -/
def explode (die : Die) (threshold : Int) :
    (budget pending : Nat) → (chain : List Int) → (closed : List (List Int)) →
      Roll ε (Option (List (List Int)))
  | _, 0, _, closed => .done (.ok (some closed.reverse))
  | 0, _ + 1, _, _ => .done (.ok none)
  | budget + 1, pending + 1, chain, closed =>
    .draw die fun face =>
      if isHit threshold face then
        explode die threshold budget (pending + 1) (face :: chain) closed
      else
        explode die threshold budget pending [] ((face :: chain).reverse :: closed)

/-- Rolls dice until none is pending. The faces before are given latest first. Below zero the
number of pending dice moves away from zero, so that only the budget ends the pool. -/
def reroll (die : Die) (threshold : Int) :
    (budget : Nat) → (pending : Int) → (drawn : List Int) → Roll ε (Option (List Int))
  | 0, pending, drawn => .done (.ok (if pending = 0 then some drawn.reverse else none))
  | budget + 1, pending, drawn =>
    if pending = 0 then .done (.ok (some drawn.reverse))
    else .draw die fun face =>
      reroll die threshold budget (if isHit threshold face then pending else pending - 1)
        (face :: drawn)

/-- Whether the first roll of the die was a hit. -/
def isExtended (chain : List Int) : Bool := 1 < chain.length

end DiceRoller
