import DiceRoller.Settings.Basic
import DiceRoller.Settings.EnvFile.Variables
import DiceRoller.Settings.Integer
import DiceRoller.Text.Lowercase

/-!
# Reading settings

Each setting has the name of its variable. Its text is what the readers find for that variable
in the environment and in the environment file, and where they find none it keeps its default.
Both integers must be at least one, and every setting that cannot be read is reported.

How the texts come about and what integers they are is left to the readers, of which
`Readers.standard` are the ones that the program runs with.
-/

namespace DiceRoller.Settings

inductive Key
  | maxDice
  | maxRolledDice
  | logLevel
  deriving DecidableEq, Repr

def Key.name : Key → String
  | .maxDice => "max_dice"
  | .maxRolledDice => "max_rolled_dice"
  | .logLevel => "log_level"

def variablePrefix : String := "SOLOTERM_DICE_"

def Key.variable (key : Key) : List Char := (variablePrefix ++ key.name).toList

inductive Problem
  | misread (why : Misreading)
  | belowOne
  deriving DecidableEq, Repr

def Problem.name : Problem → String
  | .misread .notInteger => "int_parsing"
  | .misread .tooLong => "int_parsing_size"
  | .belowOne => "greater_than_equal"

/-- The settings that cannot be read, in order of their names. -/
structure Refusal where
  problems : List (Key × Problem)
  deriving DecidableEq, Repr

def Refusal.message (refusal : Refusal) : String :=
  "; ".intercalate (refusal.problems.map fun (key, problem) => key.name ++ ": " ++ problem.name)

namespace Readers

variable (readers : Readers)

def readLimit (key : Key) (preset : Int) : Option (List Char) → Except (Key × Problem) Int
  | none => .ok preset
  | some text =>
    match readers.integer text with
    | .error why => .error (key, .misread why)
    | .ok n => if n < 1 then .error (key, .belowOne) else .ok n

/-- Settings from their texts. Neither integer hides a problem of the other. -/
def ofGiven (given : Key → Option (List Char)) : Except Refusal Settings :=
  let presets : Settings := {}
  let dice := readers.readLimit .maxDice presets.maxDice (given .maxDice)
  let rolled := readers.readLimit .maxRolledDice presets.maxRolledDice (given .maxRolledDice)
  let level := ((given .logLevel).map String.ofList).getD presets.logLevel
  match dice, rolled with
  | .ok dice, .ok rolled => .ok ⟨dice, rolled, level⟩
  | .error problem, .ok _ | .ok _, .error problem => .error ⟨[problem]⟩
  | .error first, .error second => .error ⟨[first, second]⟩

def readChars (environment : List (List Char × List Char)) (file : List Char) :
    Except Refusal Settings :=
  let assigned := (readers.assignments environment file).assigned
  readers.ofGiven fun key => readers.given? environment assigned key.variable

def read (environment : List (String × String)) (file : String) : Except Refusal Settings :=
  readers.readChars (environment.map fun (name, value) => (name.toList, value.toList)) file.toList

end Readers

/-- The names are equal up to case. -/
def sameName (a b : List Char) : Bool := Text.lower a == Text.lower b

/-- The value of the last entry that bears the name in some letter case. -/
def find? {α : Type} (entries : List (List Char × α)) (name : List Char) : Option α :=
  (entries.reverse.find? fun entry => sameName entry.1 name).map (·.2)

/-- The readers that the program runs with. -/
def Readers.standard : Readers where
  assignments := EnvFile.Assignments.ofFile
  given? environment assigned name := (find? environment name).or (find? assigned name).join
  integer := readInteger

/-- Reads settings from environment variables and the text of an environment file. -/
def read (environment : List (String × String)) (file : String) : Except Refusal Settings :=
  Readers.standard.read environment file

end DiceRoller.Settings
