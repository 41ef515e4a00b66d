import DiceRoller.Pool.Tally

/-!
# Results

A result keeps the text of its expression beside a tally or the fault that took its place.
The results of one line form a group under the label of the line.
-/

namespace DiceRoller

structure Result where
  text : String
  outcome : Except Fault Tally

def Result.failed (text : String) (fault : Fault) : Result := ⟨text, .error fault⟩

/-- What can be counted of a result. A fault stands in for no dice at all. -/
def Result.tally (result : Result) : Tally :=
  match result.outcome with
  | .ok tally => tally
  | .error _ => ⟨[], [], 0⟩

structure Group where
  label : Option String
  results : List Result

end DiceRoller
