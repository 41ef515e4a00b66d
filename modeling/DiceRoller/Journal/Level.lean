/-!
# Levels

Five named levels in rising order of severity. Records may carry any integer as severity,
and one that has no name is written as a number.
-/

namespace DiceRoller

inductive Level
  | debug
  | info
  | warning
  | error
  | critical
  deriving DecidableEq, Repr

namespace Level

def all : List Level := [.debug, .info, .warning, .error, .critical]

def severity : Level → Int
  | .debug => 10
  | .info => 20
  | .warning => 30
  | .error => 40
  | .critical => 50

def name : Level → String
  | .debug => "DEBUG"
  | .info => "INFO"
  | .warning => "WARNING"
  | .error => "ERROR"
  | .critical => "CRITICAL"

/-- Capitals of the letters that the names need: the dotless i has the same one as the
dotted. -/
def capital (c : Char) : Char :=
  if c = 'ı' then 'I' else c.toUpper

/-- The level of that name in any letter case; every other text means a warning. -/
def ofName (text : String) : Level :=
  (all.find? fun level => level.name.toList == text.toList.map capital).getD .warning

theorem ofName_name (level : Level) : ofName level.name = level := by
  cases level <;> decide +kernel

end Level

def severityName (severity : Int) : String :=
  if severity = 0 then "NOTSET"
  else match Level.all.find? fun level => level.severity == severity with
    | some level => level.name
    | none => "Level " ++ toString severity

theorem severityName_severity (level : Level) : severityName level.severity = level.name := by
  cases level <;> decide +kernel

end DiceRoller
