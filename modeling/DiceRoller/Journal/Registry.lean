import DiceRoller.Journal.Level

/-!
# Loggers by name

A registry hands out one logger for each name. It makes the logger at the first call and
gives it a handler only while it has none; every call sets the level. The empty name and
`root` are two names of one logger.
-/

namespace DiceRoller

structure Logger where
  /-- How many loggers the registry had before this one, which tells loggers apart. -/
  serial : Nat
  level : Level
  handlers : Nat
  deriving DecidableEq, Repr

structure Registry where
  entries : List (String × Logger) := []
  deriving DecidableEq, Repr

namespace Registry

def canonicalName (name : String) : String := if name = "root" then "" else name

def find? (registry : Registry) (name : String) : Option Logger :=
  registry.entries.lookup (canonicalName name)

def put (registry : Registry) (name : String) (logger : Logger) : Registry :=
  ⟨(canonicalName name, logger) :: registry.entries.filter (·.1 != canonicalName name)⟩

def size (registry : Registry) : Nat := registry.entries.length

/-- The logger of that name as it stands, or a new one without handlers. -/
def current (registry : Registry) (name : String) : Logger :=
  (registry.find? name).getD ⟨registry.size, .warning, 0⟩

def setUp (level : Level) (logger : Logger) : Logger :=
  { logger with level, handlers := if logger.handlers = 0 then 1 else logger.handlers }

/-- Hands out the logger of that name. Without a level of its own the call sets the level that
is named by `preset`. -/
def obtain (preset : String) (name : String) (level : Option String) (registry : Registry) :
    Registry × Logger :=
  let logger := setUp (.ofName (level.getD preset)) (registry.current name)
  (registry.put name logger, logger)

end Registry

end DiceRoller
