import DiceRoller.Numeral
import DiceRoller.Request.Result

/-!
# Displaying results

A result with several dice shows its total and, in braces, all its dice in one sequence with
the dropped ones in parentheses. A lone die is its total. Groups are shown one to a line.
-/

namespace DiceRoller

structure ShownDie where
  face : Int
  dropped : Bool
  deriving DecidableEq, Repr

namespace ShownDie

def before (a b : ShownDie) : Bool := a.face ≤ b.face

def text (die : ShownDie) : Except Abort String := do
  let face ← Numeral.write die.face
  return if die.dropped then "(" ++ face ++ ")" else face

end ShownDie

/-- Both rows of dice merged from the front, the kept die first where two are equal. -/
def Tally.dice (tally : Tally) : List ShownDie :=
  List.merge (tally.rolls.map (⟨·, false⟩)) (tally.dropped.map (⟨·, true⟩)) ShownDie.before

def Tally.text (tally : Tally) : Except Abort String := do
  if tally.dieCount ≤ 1 then Numeral.write tally.total
  else
    let dice ← tally.dice.mapM ShownDie.text
    let total ← Numeral.write tally.total
    return total ++ " \x7b" ++ " ".intercalate dice ++ "\x7d"

def Result.display (result : Result) : Except Abort String :=
  match result.outcome with
  | .ok tally => tally.text
  | .error fault => .ok fault.message

/-- A result among others: its expression comes first, unless the fault already quotes it. -/
def Result.entry (result : Result) : Except Abort String := do
  let display ← result.display
  return match result.outcome with
  | .ok _ => result.text ++ " -> " ++ display
  | .error _ => display

/-- What a label puts in front of its line. -/
def labelPart : Option String → String
  | none => ""
  | some label => if label.isEmpty then "" else label ++ ": "

def Group.text (group : Group) : Except Abort String := do
  let entries ← group.results.mapM Result.entry
  return labelPart group.label ++ ", ".intercalate entries

def groupsText (groups : List Group) : Except Abort String := do
  let lines ← groups.mapM Group.text
  return "\n".intercalate lines

end DiceRoller
