import DiceRoller.Journal.Record
import Mathlib.Data.String.Basic

/-!
# Lines of the journal

A writer takes up the layout that a record needs before it writes the record. So the layout that
an earlier record left behind reaches no later line, and the place in the code is on the lines of
warnings and of what is worse, and on no others (`line_of_its_record_alone`).
-/

namespace DiceRoller

namespace Record

/-- The fields that every line starts with. -/
def front (record : Record) : String :=
  "[" ++ record.field .time ++ "] [" ++ record.field .level ++ "] [" ++ record.field .logger ++ "]"

/-- The field for the place in the code, with the blank before it. -/
def place (record : Record) : String :=
  " [" ++ record.moduleName ++ ":" ++ toString record.line ++ "]"

def back (record : Record) : String := " - " ++ record.message

variable (record : Record)

theorem write_short : Layout.short.write record = record.front ++ record.back := by
  have joined (time level logger message : String) :
      String.join ["[" ++ time ++ "] ", "[" ++ level ++ "] ", "[" ++ logger ++ "] "] ++ "- " ++
          message =
        "[" ++ time ++ "] [" ++ level ++ "] [" ++ logger ++ "]" ++ (" - " ++ message) := by
    rw [← String.toList_inj]
    simp
  exact joined _ _ _ _

theorem write_long : Layout.long.write record = record.front ++ record.place ++ record.back := by
  have joined (time level logger name line message : String) :
      String.join ["[" ++ time ++ "] ", "[" ++ level ++ "] ", "[" ++ logger ++ "] ",
          "[" ++ (name ++ ":" ++ line) ++ "] "] ++ "- " ++ message =
        "[" ++ time ++ "] [" ++ level ++ "] [" ++ logger ++ "]" ++
          (" [" ++ name ++ ":" ++ line ++ "]") ++ (" - " ++ message) := by
    rw [← String.toList_inj]
    simp
  exact joined _ _ _ _ _ _

/-- No line of a record with its place is one without. -/
theorem write_long_ne_short : Layout.long.write record ≠ Layout.short.write record := by
  rw [write_long, write_short]
  intro same
  have lengths := congrArg String.length same
  have colon : ":".length = 1 := rfl
  simp only [place, String.length_append, colon] at lengths
  omega

end Record

namespace Layout

variable {severity : Int}

theorem forSeverity_of_lt (low : severity < 30) : forSeverity severity = short :=
  if_neg (Int.not_le.mpr low)

theorem forSeverity_of_le (high : 30 ≤ severity) : forSeverity severity = long := if_pos high

end Layout

namespace RecordWriter

variable (writer : RecordWriter) (record : Record)

/-- The layout in hand is given up before it is read. -/
theorem write_eq_forSeverity :
    (writer.write record).2 = (Layout.forSeverity record.severity).write record := rfl

theorem length_writeAll (records : List Record) :
    (writer.writeAll records).length = records.length := by
  rw [writeAll_eq_map, List.length_map]

theorem getElem?_writeAll (earlier later : List Record) :
    (writer.writeAll (earlier ++ record :: later))[earlier.length]? =
      some (fresh.write record).2 := by
  rw [writeAll_eq_map, List.getElem?_map, List.getElem?_append_right (Nat.le_refl _),
    Nat.sub_self]
  rfl

/-- Whatever a writer wrote before and has in hand, a record has the line that a fresh writer
makes of it alone. Between the name of the logger and the message this line has the place in the
code from a warning upwards, and below it has nothing there. -/
theorem line_of_its_record_alone (earlier later : List Record) :
    let lines := writer.writeAll (earlier ++ record :: later)
    lines.length = earlier.length + (later.length + 1) ∧
    ∃ line, lines[earlier.length]? = some line ∧ fresh.writeAll [record] = [line] ∧
      (line = record.front ++ record.place ++ record.back ↔ 30 ≤ record.severity) ∧
      (line = record.front ++ record.back ↔ record.severity < 30) := by
  intro lines
  refine ⟨?_, (fresh.write record).2, writer.getElem?_writeAll record earlier later, rfl, ?_⟩
  · rw [length_writeAll, List.length_append, List.length_cons]
  · rw [← record.write_long, ← record.write_short, write_eq_forSeverity]
    rcases Int.lt_or_le record.severity 30 with low | high
    · rw [Layout.forSeverity_of_lt low]
      exact ⟨iff_of_false record.write_long_ne_short.symm (Int.not_le.mpr low),
        iff_of_true rfl low⟩
    · rw [Layout.forSeverity_of_le high]
      exact ⟨iff_of_true rfl high,
        iff_of_false record.write_long_ne_short (Int.not_lt.mpr high)⟩

end RecordWriter

end DiceRoller
