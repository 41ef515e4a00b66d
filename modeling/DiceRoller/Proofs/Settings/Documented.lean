import DiceRoller.Proofs.Settings.Effective
import DiceRoller.Proofs.Settings.FileLines
import DiceRoller.Proofs.Settings.IntegerTexts

/-!
# Readers that do what is documented

What settings are read with comes from elsewhere, so what is proved of settings is proved of all
readers that do what is documented of them. From that alone it follows which text counts for a
setting (`given?_eq_effective?`). The readers that the program runs with are among them
(`documented_standard`).
-/

namespace DiceRoller.Settings

open EnvFile (Assigned Assignments FileLine)

namespace Readers

/-- What is documented of the readers, each on its own. -/
structure Documented (readers : Readers) : Prop where
  /-- A variable of the environment goes before the file, in whatever letter case. -/
  environment_first : ∀ {environment : List (List Char × List Char)} {name : List Char}
    (assigned : Assigned), Distinct environment → ∀ entry ∈ environment,
      sameName entry.1 name = true → readers.given? environment assigned name = some entry.2
  /-- Of the names of a file that are equal up to case the last one in its table counts. -/
  file_next : ∀ {environment : List (List Char × List Char)} {name : List Char}
    (before after : Assigned) (entry : List Char × Option (List Char)),
      (∀ other ∈ environment, sameName other.1 name = false) → sameName entry.1 name = true →
      (∀ other ∈ after, sameName other.1 name = false) →
      readers.given? environment (before ++ entry :: after) name = entry.2
  /-- A variable that neither of them has is not set. -/
  unset : ∀ {environment : List (List Char × List Char)} {assigned : Assigned} {name : List Char},
    (∀ entry ∈ environment, sameName entry.1 name = false) →
    (∀ entry ∈ assigned, sameName entry.1 name = false) →
    readers.given? environment assigned name = none
  /-- A file of assignments, comments and blank lines is read line by line, and a variable in a
  value means what the file assigned to it before, else what the environment holds. -/
  line_by_line : ∀ (environment : List (List Char × List Char)) (lines : List FileLine),
    '\r' ∉ EnvFile.written lines → (EnvFile.written lines).head? ≠ some '\ufeff' →
    readers.assignments environment (EnvFile.written lines) = .ofLines environment lines
  /-- A text that is not too long is read as the integer that it is, or refused if it is none. -/
  integer : ∀ {text : List Char} {outcome : Except Misreading Int},
    ReadsAs text outcome → readers.integer text = outcome
  /-- Only texts with more characters than a number may have digits are too long. -/
  tooLong : ∀ {text : List Char}, readers.integer text = .error .tooLong →
    Numeral.maxDigits < text.length

namespace Documented

variable {readers : Readers} (documented : readers.Documented)

include documented

theorem given?_table {environment : List (List Char × List Char)} (made : Assignments) (key : Key)
    (absent : ∀ entry ∈ environment, sameName entry.1 key.variable = false) :
    readers.given? environment made.table key.variable = key.inFile? made := by
  rw [Key.inFile?]
  cases newest : key.newest? made with
  | none =>
    rw [Key.newest?, List.getLast?_eq_none_iff, List.filter_eq_nil_iff] at newest
    refine documented.unset absent fun entry mem => ?_
    obtain ⟨name, hname, rfl⟩ := List.mem_map.mp mem
    exact Bool.eq_false_iff.mpr (newest name hname)
  | some spelling =>
    rw [Key.newest?, List.getLast?_filter] at newest
    obtain ⟨named, later, before, parts, others⟩ := List.find?_eq_some_iff_append.mp newest
    have names : made.names = before.reverse ++ spelling :: later.reverse := by
      rw [← List.reverse_reverse made.names, parts]
      simp
    rw [Assignments.table, names, List.map_append, List.map_cons]
    refine documented.file_next _ _ _ absent named fun other mem => ?_
    obtain ⟨name, hname, rfl⟩ := List.mem_map.mp mem
    have unnamed : key.names name = false := by
      simpa using others name (List.mem_reverse.mp hname)
    exact unnamed

/-- The text that counts for a setting is the one that the readers give for its variable. -/
theorem given?_eq_effective? {environment : List (List Char × List Char)}
    (distinct : Distinct environment) (made : Assignments) (key : Key) :
    readers.given? environment made.assigned key.variable = key.effective? environment made := by
  rw [Assignments.assigned_eq_table, Key.effective?, Key.inEnvironment?]
  cases found : environment.find? fun entry => key.names entry.1 with
  | some entry =>
    have named := List.find?_some found
    exact documented.environment_first _ distinct entry (List.mem_of_find?_eq_some found) named
  | none =>
    rw [List.find?_eq_none] at found
    exact documented.given?_table made key fun entry mem => Bool.eq_false_iff.mpr (found entry mem)

end Documented

end Readers

section Standard

variable {α : Type} {entries : List (List Char × α)} {name : List Char}

theorem find?_of_last {before after : List (List Char × α)} {entry : List Char × α}
    (named : sameName entry.1 name = true)
    (others : ∀ other ∈ after, sameName other.1 name = false) :
    find? (before ++ entry :: after) name = some entry.2 := by
  have later : (after.reverse.find? fun other => sameName other.1 name) = none := by
    rw [List.find?_eq_none]
    exact fun other mem => Bool.eq_false_iff.mp (others other (List.mem_reverse.mp mem))
  simp [find?, later, named]

theorem find?_eq_none (h : ∀ entry ∈ entries, sameName entry.1 name = false) :
    find? entries name = none := by
  rw [find?, Option.map_eq_none_iff, List.find?_eq_none]
  exact fun entry mem => Bool.eq_false_iff.mp (h entry (List.mem_reverse.mp mem))

/-- Where no two names are equal up to case, it does not matter which one comes last. -/
theorem find?_of_distinct {environment : List (List Char × List Char)}
    (distinct : Distinct environment) {entry : List Char × List Char} (mem : entry ∈ environment)
    (named : sameName entry.1 name = true) : find? environment name = some entry.2 := by
  obtain ⟨before, after, rfl⟩ := List.append_of_mem mem
  refine find?_of_last named fun other later => Bool.eq_false_iff.mpr fun same => ?_
  rw [Distinct, List.map_append, List.map_cons, List.nodup_append, List.nodup_cons] at distinct
  refine distinct.2.1.1 (List.mem_map.mpr ⟨other, later, ?_⟩)
  rw [sameName, beq_iff_eq] at named same
  exact same.trans named.symm

theorem documented_standard : Readers.standard.Documented where
  environment_first assigned distinct entry mem named := by
    simp [Readers.standard, find?_of_distinct distinct mem named]
  file_next before after entry absent named others := by
    simp [Readers.standard, find?_eq_none absent, find?_of_last named others]
  unset absent unassigned := by
    simp [Readers.standard, find?_eq_none absent, find?_eq_none unassigned]
  line_by_line environment _ feeds unmarked :=
    Assignments.ofFile_written environment feeds unmarked
  integer := readInteger_eq_of_readsAs
  tooLong long := length_lt_of_startsTooLong (readInteger_eq_tooLong_iff.mp long)

end Standard

end DiceRoller.Settings
