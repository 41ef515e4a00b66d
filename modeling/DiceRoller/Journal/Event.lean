import DiceRoller.Fault
import DiceRoller.Journal.Level
import DiceRoller.Text.Quoted

/-!
# Journal events

What a request leaves in the journal. An event knows its channel, its level and its message;
which events are shown is decided by a threshold alone.
-/

namespace DiceRoller

inductive Channel
  | dice
  | server
  deriving DecidableEq, Repr

def Channel.name : Channel → String
  | .dice => "soloterm_dice.dice"
  | .server => "soloterm_dice.server"

inductive Event
  | expressionFailed (text : String) (fault : Fault)
  | requestRolled (groups : Nat)
  | requestAnswered (text : String)
  deriving DecidableEq, Repr

namespace Event

def channel : Event → Channel
  | .expressionFailed .. | .requestRolled _ => .dice
  | .requestAnswered _ => .server

def level : Event → Level
  | .expressionFailed .. | .requestRolled _ => .debug
  | .requestAnswered _ => .info

def quote (text : String) : String := String.ofList (Text.quoted text.toList)

def message : Event → String
  | .expressionFailed text fault => "Roll failed for " ++ quote text ++ ": " ++ fault.message
  | .requestRolled groups => "Rolled " ++ toString groups ++ " group(s)"
  | .requestAnswered text => "Rolled " ++ quote text

def shownAt (threshold : Level) (event : Event) : Bool :=
  threshold.severity ≤ event.level.severity

end Event

def shown (threshold : Level) (journal : List Event) : List Event :=
  journal.filter (Event.shownAt threshold)

end DiceRoller
