import DiceRoller.Proofs.Calendar.Columns
import DiceRoller.Proofs.Journal.Lines
import DiceRoller.Proofs.Report.Retelling
import DiceRoller.Proofs.Request.Journal
import DiceRoller.Proofs.Roll.Noting
import DiceRoller.Proofs.Text.Quoting

/-!
# One line for every record

The text of a request comes into the journal on three ways. As a whole and as an expression it is
quoted, and a quotation has no line breaks. As part of the words of a fault it stands as it is, but
there it is an expression in lower case, which has been cut from one line. So no request can break
a line of the journal, whatever its characters are (`log_keeps_lines`).
-/

namespace DiceRoller

namespace Event

theorem unbroken_quote (text : String) : Unbroken (quote text) := by
  rw [Unbroken, quote, String.toList_ofList]
  exact Text.newline_not_mem_quoted text.toList

theorem unbroken_expressionFailed (text : String) {fault : Fault} (h : Unbroken fault.detail) :
    Unbroken (message (.expressionFailed text fault)) := by
  have quoted : Unbroken ("Roll failed for " ++ quote text) :=
    unbroken_append.mpr ⟨by decide, unbroken_quote text⟩
  have colon : Unbroken ": " := by decide
  have opening := unbroken_append.mpr ⟨quoted, colon⟩
  exact unbroken_append.mpr ⟨opening, Fault.unbroken_message h⟩

theorem unbroken_requestRolled (groups : Nat) : Unbroken (message (.requestRolled groups)) := by
  have count : Unbroken ("Rolled " ++ toString groups) :=
    unbroken_append.mpr ⟨by decide, unbroken_toString groups⟩
  exact unbroken_append.mpr ⟨count, by decide⟩

theorem unbroken_requestAnswered (text : String) : Unbroken (message (.requestAnswered text)) :=
  unbroken_append.mpr ⟨by decide, unbroken_quote text⟩

theorem severity_level_lt (event : Event) : event.level.severity < 30 := by
  cases event <;> simp [level, Level.severity]

end Event

theorem Moment.newline_not_mem_padded (width n : Nat) : '\n' ∉ padded width n := by
  intro mem
  exact absurd (isDigit_of_mem_padded mem) (by decide)

theorem Moment.unbroken_journalTime (moment : Moment) : Unbroken moment.journalTime := by
  refine unbroken_append.mpr ⟨unbroken_toString moment.date.year, ?_⟩
  rw [Unbroken, String.toList_ofList]
  simp [dayChars, clockChars, newline_not_mem_padded]

theorem Level.unbroken_name (level : Level) : Unbroken level.name := by
  cases level <;> decide

theorem Channel.unbroken_name (channel : Channel) : Unbroken channel.name := by
  cases channel <;> decide

/-- The record is made of the event, at whatever time and at whatever place in the code. -/
structure Record.IsOf (record : Record) (event : Event) : Prop where
  logger : record.logger = event.channel.name
  severity : record.severity = event.level.severity
  message : record.message = event.message

namespace Record.IsOf

variable {record : Record} {event : Event}

/-- The path of the record may have any characters: at these levels it is not written. -/
theorem unbroken_write (h : record.IsOf event) (told : Unbroken event.message)
    (writer : RecordWriter) : Unbroken (writer.write record).2 := by
  have low : record.severity < 30 := h.severity ▸ event.severity_level_lt
  rw [writer.write_eq_forSeverity, Layout.forSeverity_of_lt low, record.write_short]
  have time : Unbroken (record.field .time) := Moment.unbroken_journalTime _
  have level : Unbroken (record.field .level) := by
    rw [Record.field, h.severity, severityName_severity]
    exact Level.unbroken_name _
  have logger : Unbroken (record.field .logger) := by
    rw [Record.field, h.logger]
    exact Channel.unbroken_name _
  have message : Unbroken record.message := h.message ▸ told
  simp +decide only [Record.front, Record.back, unbroken_append, time, level, logger, message]

theorem unbroken_of_mem_writeAll {records : List Record} {events : List Event}
    (h : List.Forall₂ IsOf records events) (told : ∀ event ∈ events, Unbroken event.message)
    (writer : RecordWriter) : ∀ line ∈ writer.writeAll records, Unbroken line := by
  induction h generalizing writer with
  | nil => exact nofun
  | cons first _ ih =>
    have ⟨here, later⟩ := List.forall_mem_cons.mp told
    exact List.forall_mem_cons.mpr ⟨first.unbroken_write here writer, ih later _⟩

end Record.IsOf

namespace Request

variable {settings : Settings}

/-- The message of the event is in one line. -/
abbrev TellsInLine (event : Event) : Prop := Unbroken event.message

theorem notes_rollExpression {e : String} (h : Unbroken e) :
    (rollExpression settings e).Notes TellsInLine := by
  have dice : (Expression.readAndRoll settings (Expression.canonical e)).settle.silent.Notes
      TellsInLine := Roll.notes_silent _
  rw [Roll.silent_settle, Expression.silent_readAndRoll] at dice
  apply dice.bind
  intro outcome throws course
  cases outcome with
  | ok tally => exact .done _
  | error fault =>
    have whole : (rollExpression settings e).Course (throws ++ [])
        (.ok (.failed (Expression.canonical e) fault)) := course.bind (.note (.done _))
    have keeps := (share_of_course whole).keepsLine h
    exact .note (Event.unbroken_expressionFailed _ (keeps.detail fault rfl)) (.done _)

theorem notes_rollLine {line : Line} (h : line.WellFormed) :
    (rollLine settings line).Notes TellsInLine := by
  unfold rollLine
  apply (Roll.Notes.mapM fun e he => ?_).bind
  · intro results _ _
    exact .done _
  · exact notes_rollExpression ((h.expressions e he).free '\n' (by simp))

theorem notes_roll (settings : Settings) (text : String) :
    (roll settings text).Notes TellsInLine := by
  unfold roll rollLines
  apply (Roll.Notes.mapM fun line hline => notes_rollLine (wellFormed_of_mem_lines hline)).bind
  intro groups _ _
  exact .note (Event.unbroken_requestRolled groups.length) (.done _)

theorem notes_answerNoting (settings : Settings) (clock : Clock) (text : String) :
    (answerNoting settings clock text).Notes TellsInLine := by
  have answered : (answer settings clock text).Notes TellsInLine := by
    unfold answer
    split
    · exact .done _
    · exact (notes_roll settings text).bind fun groups _ _ => .done _
  exact answered.bind fun answer _ _ => .note (Event.unbroken_requestAnswered text) (.done _)

/-- No request breaks a line of the journal. Whatever its text is, however the dice fall and
whether or not it is answered, every message that it leaves is in one line, and so are the lines
that are written of these messages. So a log, in which every line ends with a line break, is read
back line by line. -/
theorem log_keeps_lines {σ : Type} [DiceSource σ] (settings : Settings) (clock : Clock)
    (text : String) (tray : Tray σ) (level : Level) :
    let events := (((answerNoting settings clock text).showing level).run tray).journal
    (∀ event ∈ events, Unbroken event.message) ∧
    ∀ (writer : RecordWriter) (records : List Record), List.Forall₂ Record.IsOf records events →
      let lines := writer.writeAll records
      lines.length = events.length ∧ (∀ line ∈ lines, Unbroken line) ∧
        ("\n".intercalate (lines ++ [""])).toList.splitOn '\n' =
          lines.map String.toList ++ [[]] := by
  intro events
  have told : ∀ event ∈ events, Unbroken event.message := by
    intro event hevent
    rw [show events = _ from congrArg Played.journal (Roll.run_showing level _ tray)] at hevent
    exact (notes_answerNoting settings clock text).run tray event (List.mem_of_mem_filter hevent)
  refine ⟨told, fun writer records hrecords => ?_⟩
  intro lines
  have unbroken := Record.IsOf.unbroken_of_mem_writeAll hrecords told writer
  refine ⟨(writer.length_writeAll records).trans hrecords.length_eq, unbroken, ?_⟩
  rw [Unbroken.splitOn_intercalate (by simp), List.map_append]
  · rfl
  · intro line hline
    rcases List.mem_append.mp hline with written | last
    · exact unbroken line written
    · rw [List.mem_singleton.mp last]
      exact List.not_mem_nil

theorem log_keeps_lines_of_broken_request :
    let events := (((answerNoting {} ⟨0, 0⟩ "1d6, 3dX\nDamage: d8").showing .debug).run
      (Script.tray [4, 2])).journal
    let records := events.map fun event =>
      (⟨event.channel.name, event.level.severity, "/srv/a\nb.py", 9, event.message, 0⟩ : Record)
    let lines := RecordWriter.fresh.writeAll records
    lines.length = 3 ∧ ∀ line ∈ lines, Unbroken line := by
  intro events records lines
  have same : List.Forall₂ Record.IsOf records events := by
    rw [List.forall₂_map_left_iff, List.forall₂_same]
    exact fun event _ => ⟨rfl, rfl, rfl⟩
  obtain ⟨-, keeps⟩ := log_keeps_lines {} ⟨0, 0⟩ "1d6, 3dX\nDamage: d8" (Script.tray [4, 2]) .debug
  obtain ⟨-, unbroken, -⟩ := keeps .fresh records same
  exact ⟨by decide +kernel, unbroken⟩

end Request

end DiceRoller
