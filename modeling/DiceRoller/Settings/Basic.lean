/-!
# Settings

What may be configured: how many dice one expression may name, how many it may roll when it
expands, and which events the journal shows.
-/

namespace DiceRoller

structure Settings where
  maxDice : Int := 1000
  maxRolledDice : Int := 100
  logLevel : String := "WARNING"
  deriving DecidableEq, Repr

end DiceRoller
