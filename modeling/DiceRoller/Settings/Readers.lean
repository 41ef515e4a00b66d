/-!
# Readers of settings

Settings are read with three functions that come from elsewhere and are parameters of the reading:
one that reads an environment file, one that looks a variable up and one that reads an integer.
Between the first two stands a table that has every name of the file once.
-/

namespace DiceRoller

namespace EnvFile

/-- Names with their values, in the order in which a file assigns them. A name without an equals
sign is assigned no value. -/
abbrev Assignments := List (List Char × Option (List Char))

/-- Assigned values in the order in which their names first came up. -/
abbrev Assigned := List (List Char × Option (List Char))

/-- A name that was assigned before keeps its place. -/
def Assigned.set (assigned : Assigned) (name : List Char) (value : Option (List Char)) :
    Assigned :=
  match assigned with
  | [] => [(name, value)]
  | entry :: rest =>
    if entry.1 = name then (name, value) :: rest else entry :: Assigned.set rest name value

def Assignments.assigned (made : Assignments) : Assigned :=
  made.foldl (fun assigned entry => assigned.set entry.1 entry.2) []

end EnvFile

namespace Settings

/-- Why a text is not read as an integer. -/
inductive Misreading
  | notInteger
  | tooLong
  deriving DecidableEq, Repr

/-- The functions that settings are read with. -/
structure Readers where
  /-- What the text of an environment file assigns in the given environment. -/
  assignments : List (List Char × List Char) → List Char → EnvFile.Assignments
  /-- The text given for a variable by the environment or, failing that, by a file. -/
  given? : List (List Char × List Char) → EnvFile.Assigned → List Char → Option (List Char)
  integer : List Char → Except Misreading Int

end Settings

end DiceRoller
