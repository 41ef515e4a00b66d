import DiceRoller.Numeral

/-!
# Why an expression is refused

A flaw is against the grammar and a breach against the bounds of its numbers. Both become
faults that quote the canonical text. An integer with too many digits cannot be quoted and
aborts the request instead.
-/

namespace DiceRoller

namespace Expression

inductive Flaw
  | empty
  | noDice
  | secondSelection
  | secondCounting
  | mixedModifiers
  | unexpected (tail : List Char)
  deriving DecidableEq, Repr

inductive Breach
  | noDie
  | tooManyDice (count most : Int)
  | tooFewSides
  | amountTooSmall
  | amountAboveCount (amount count : Int)
  deriving DecidableEq, Repr

def Flaw.phrase : Flaw → String
  | .empty => "Empty dice expression"
  | .noDice => "Expected 'NdX' or 'NdF'"
  | .secondSelection => "More than one keep/drop modifier"
  | .secondCounting => "More than one success modifier"
  | .mixedModifiers => "Keep/drop and success counting cannot be combined"
  | .unexpected tail => "Unexpected '" ++ String.ofList tail ++ "'"

def Flaw.detail (text : String) : Flaw → String
  | .empty => Flaw.empty.phrase ++ ". Example: '2d6+3'."
  | flaw => flaw.phrase ++ " in '" ++ text ++ "'. Example: '2d6+3', '4d6kh3' or '6d10v8'."

def Flaw.fault (flaw : Flaw) (text : String) : Fault := ⟨.malformed, flaw.detail text⟩

def Breach.detail (text : String) : Breach → Except Abort String
  | .noDie => .ok ("Dice count must be at least 1 in '" ++ text ++ "'.")
  | .tooManyDice count most => do
    let count ← Numeral.write count
    let most ← Numeral.write most
    return "Too many dice in '" ++ text ++ "': " ++ count ++ " (max " ++ most ++ ")."
  | .tooFewSides => .ok ("A die needs at least 2 sides in '" ++ text ++ "'.")
  | .amountTooSmall => .ok ("Keep/drop amount must be at least 1 in '" ++ text ++ "'.")
  | .amountAboveCount amount count => do
    let amount ← Numeral.write amount
    let count ← Numeral.write count
    return "Cannot keep or drop " ++ amount ++ " of " ++ count ++ " dice in '" ++ text ++ "'."

end Expression

/-- The failure whose detail has just been put into words, or could not be. -/
def Failure.ofDetail (kind : Fault.Kind) : Except Abort String → Failure
  | .ok detail => .fault ⟨kind, detail⟩
  | .error reason => .abort reason

def Expression.Breach.failure (breach : Expression.Breach) (text : String) : Failure :=
  .ofDetail .outOfRange (breach.detail text)

/-- The expanding roll of `text` needs more than `cap` dice. -/
def Failure.overflow (text : String) (cap : Int) : Failure :=
  .ofDetail .overflow do
    let cap ← Numeral.write cap
    return "'" ++ text ++ "' would roll more than " ++ cap ++
      " dice. Raise the threshold or roll fewer dice."

end DiceRoller
