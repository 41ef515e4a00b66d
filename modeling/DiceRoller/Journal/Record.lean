import DiceRoller.Calendar.Moment
import DiceRoller.Journal.Level

/-!
# Journal lines

A record is written on its line as fields in brackets and a message. From a warning upwards
the fields include the place in the code that the record comes from. A writer has one layout
in hand and takes up the one that a record needs before it writes the record.
-/

namespace DiceRoller

structure Record where
  logger : String
  severity : Int
  path : String
  line : Int
  message : String
  /-- Seconds after the start of 1970. -/
  time : Int
  deriving DecidableEq, Repr

namespace Record

def fileName (path : List Char) : List Char := (path.reverse.takeWhile (· != '/')).reverse

/-- A file name without its last extension. Dots at the front start no extension. -/
def stem (name : List Char) : List Char :=
  match name.reverse.dropWhile (· != '.') with
  | [] => name
  | _ :: before => if before.all (· == '.') then name else before.reverse

def moduleName (record : Record) : String :=
  String.ofList (stem (fileName record.path.toList))

inductive Field
  | time
  | level
  | logger
  | origin
  deriving DecidableEq, Repr

/-- The time is universal time. -/
def field (record : Record) : Field → String
  | .time => (Moment.ofSeconds record.time).journalTime
  | .level => severityName record.severity
  | .logger => record.logger
  | .origin => record.moduleName ++ ":" ++ toString record.line

end Record

abbrev Layout := List Record.Field

namespace Layout

def short : Layout := [.time, .level, .logger]

def long : Layout := [.time, .level, .logger, .origin]

def forSeverity (severity : Int) : Layout :=
  if Level.warning.severity ≤ severity then long else short

def write (layout : Layout) (record : Record) : String :=
  String.join (layout.map fun field => "[" ++ record.field field ++ "] ") ++ "- " ++
    record.message

end Layout

structure RecordWriter where
  layout : Layout
  deriving DecidableEq, Repr

namespace RecordWriter

/-- A writer before its first record. Any layout would do, as `write` takes up the one that the
record needs before it reads the layout. -/
def fresh : RecordWriter := ⟨.short⟩

def write (writer : RecordWriter) (record : Record) : RecordWriter × String :=
  let writer := { writer with layout := .forSeverity record.severity }
  (writer, writer.layout.write record)

def writeAll (writer : RecordWriter) : List Record → List String
  | [] => []
  | record :: records =>
    let written := writer.write record
    written.2 :: written.1.writeAll records

theorem writeAll_eq_map (writer : RecordWriter) (records : List Record) :
    writer.writeAll records = records.map fun record => (fresh.write record).2 := by
  induction records generalizing writer with
  | nil => rfl
  | cons record records ih => exact congrArg _ (ih _)

end RecordWriter

end DiceRoller
