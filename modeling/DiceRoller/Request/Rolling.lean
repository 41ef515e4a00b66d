import DiceRoller.Expression.Reading
import DiceRoller.Request.Line
import DiceRoller.Request.Result
import DiceRoller.Settings.Basic

/-!
# Rolling a request

Expressions are rolled in the order of the text. Each is read before its first die is drawn,
and a fault of its own becomes its result. The journal gets an event for every fault and one
for the request.
-/

namespace DiceRoller

/-- Reads and rolls an expression under the bounds of the settings. -/
def Expression.readAndRoll (settings : Settings) (text : String) : Roll Failure Tally :=
  match Expression.read settings.maxDice text with
  | .ok e => e.roll text settings.maxRolledDice
  | .error failure => .fail failure

namespace Request

def noteFault (result : Result) : Roll Abort Result :=
  match result.outcome with
  | .ok _ => .done (.ok result)
  | .error fault => .note (.expressionFailed result.text fault) (.done (.ok result))

def rollExpression (settings : Settings) (text : String) : Roll Abort Result := do
  let text := Expression.canonical text
  let outcome ← (Expression.readAndRoll settings text).settle
  noteFault ⟨text, outcome⟩

def rollLine (settings : Settings) (line : Line) : Roll Abort Group := do
  let results ← line.expressions.mapM (rollExpression settings)
  return ⟨line.label, results⟩

def rollLines (settings : Settings) (lines : List Line) : Roll Abort (List Group) :=
  lines.mapM (rollLine settings)

def roll (settings : Settings) (text : String) : Roll Abort (List Group) := do
  let groups ← rollLines settings (lines text)
  Roll.noting (.requestRolled groups.length)
  return groups

end Request

end DiceRoller
