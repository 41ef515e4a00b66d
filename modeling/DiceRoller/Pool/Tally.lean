import DiceRoller.Expression.Flaw
import DiceRoller.Pool.Expanding
import DiceRoller.Pool.Selection

/-!
# Tallies

The outcome of an expression: the faces that count, the faces dropped, and the total, which
is a sum of faces or a number of successes with the constant added.
-/

namespace DiceRoller

structure Tally where
  rolls : List Int
  dropped : List Int := []
  total : Int
  deriving DecidableEq, Repr

def Tally.dieCount (tally : Tally) : Nat := tally.rolls.length + tally.dropped.length

def sumFaces (faces : List Int) : Int := faces.foldr (· + ·) 0

namespace Tally

def ofSelected (bonus : Int) (selected : Selected) : Tally :=
  ⟨selected.kept, selected.dropped, sumFaces selected.kept + bonus⟩

def ofHits (threshold bonus : Int) (faces : List Int) : Tally :=
  ⟨ascending faces, [], hits threshold faces + bonus⟩

/-- A die that exploded is one success, however long its chain. -/
def ofChains (bonus : Int) (chains : List (List Int)) : Tally :=
  ⟨ascending (chains.map sumFaces), [], chains.countP isExtended + bonus⟩

end Tally

namespace Expression

/-- The roll of a pool that may expand to `cap` dice, or the fault that it would need more. -/
def expanding {α : Type} (e : Expression) (text : String) (cap : Int) (tally : α → Tally)
    (pool : Roll Failure (Option α)) : Roll Failure Tally :=
  if cap < e.count then .fail (.overflow text cap)
  else pool.bind fun
    | some rolled => .done (.ok (tally rolled))
    | none => .fail (.overflow text cap)

/-- The tally of faces that did not expand, or that expanded into dice of their own. -/
def score (e : Expression) (faces : List Int) : Tally :=
  match e.modifier with
  | none => .ofSelected e.bonus ⟨ascending faces, []⟩
  | some (.select rule amount) => .ofSelected e.bonus (rule.apply amount (ascending faces))
  | some (.count _ threshold) => .ofHits threshold e.bonus faces

/-- Rolls an expression. Its text serves the fault of an expanding pool alone. -/
def roll (e : Expression) (text : String) (cap : Int) : Roll Failure Tally :=
  match e.modifier with
  | some (.count .exploding threshold) =>
    e.expanding text cap (.ofChains e.bonus)
      (explode e.die threshold cap.toNat e.count.toNat [] [])
  | some (.count .reroll threshold) =>
    e.expanding text cap e.score (reroll e.die threshold cap.toNat e.count [])
  | _ => (Roll.dice e.die e.count.toNat []).bind fun faces => .done (.ok (e.score faces))

end Expression

end DiceRoller
