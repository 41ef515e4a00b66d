import DiceRoller.Calendar.Moment
import DiceRoller.Report.Display
import DiceRoller.Request.Rolling

/-!
# Answers

The answer to a request tells the same twice: as groups of reports and as text. It also
holds the request itself and the time. A blank request gets none.
-/

namespace DiceRoller

structure Report where
  text : String
  outcome : Except String (Tally × String)

structure GroupReport where
  label : Option String
  reports : List Report

structure Answer where
  time : String
  request : String
  groups : List GroupReport
  text : String

/-- The message of a fault, or the tally with its display. -/
def Result.report (result : Result) : Except Abort Report := do
  match result.outcome with
  | .ok tally =>
    let display ← tally.text
    return ⟨result.text, .ok (tally, display)⟩
  | .error fault => return ⟨result.text, .error fault.message⟩

def Group.report (group : Group) : Except Abort GroupReport := do
  let reports ← group.results.mapM Result.report
  return ⟨group.label, reports⟩

def Answer.ofGroups (clock : Clock) (request : String) (groups : List Group) :
    Except Abort Answer := do
  let reports ← groups.mapM Group.report
  let text ← groupsText groups
  return ⟨clock.stamp, request, reports, text⟩

namespace Request

/-- Rolls a request and displays its groups. -/
def rollText (settings : Settings) (text : String) : Roll Abort String := do
  let groups ← roll settings text
  .ofExcept (groupsText groups)

def isBlank (text : String) : Bool := text.toList.all Text.isBlank

def answer (settings : Settings) (clock : Clock) (text : String) : Roll Abort Answer :=
  if isBlank text then .fail .emptyRequest
  else do
    let groups ← roll settings text
    .ofExcept (Answer.ofGroups clock text groups)

/-- Answers a request and leaves an event of its own in the journal. -/
def answerNoting (settings : Settings) (clock : Clock) (text : String) : Roll Abort Answer := do
  let answer ← answer settings clock text
  Roll.noting (.requestAnswered text)
  return answer

end Request

end DiceRoller
