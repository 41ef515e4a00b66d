import DiceRoller.Proofs.Settings.Assignments
import DiceRoller.Settings.Reading

/-!
# The text that counts for a setting

A setting is looked up in the environment, in whatever letter case, and then in the file. Of a file
that spells its name in more than one way, only the spelling that came up last counts. Where there
is but one spelling, what is assigned last counts (`inFile?_of_one_spelling`).
-/

namespace DiceRoller.Settings

open EnvFile (Assignments)

namespace Key

variable (key : Key)

/-- The name is that of the setting in some letter case. -/
def names (name : List Char) : Bool := sameName name key.variable

def inEnvironment? (environment : List (List Char × List Char)) : Option (List Char) :=
  (environment.find? fun entry => key.names entry.1).map (·.2)

/-- Of the spellings of the name that a file assigns to, the one that came up last. -/
def newest? (made : Assignments) : Option (List Char) := (made.names.filter key.names).getLast?

/-- What a file assigns last to the newest spelling of the name. -/
def inFile? (made : Assignments) : Option (List Char) :=
  (key.newest? made).bind fun spelling => (made.latest? spelling).join

/-- What a file assigns last to the name in whatever spelling. -/
def last? (made : Assignments) : Option (List Char) :=
  (made.reverse.find? fun entry => key.names entry.1).bind (·.2)

/-- The text that counts for the setting. -/
def effective? (environment : List (List Char × List Char)) (made : Assignments) :
    Option (List Char) :=
  (key.inEnvironment? environment).or (key.inFile? made)

end Key

/-- No two names are equal up to case. -/
def Distinct (environment : List (List Char × List Char)) : Prop :=
  (environment.map fun entry => Text.lower entry.1).Nodup

/-- A file in which the name has but one spelling gives the setting what it assigns last. -/
theorem Key.inFile?_of_one_spelling {key : Key} {made : Assignments}
    (one : ∀ a ∈ made, ∀ b ∈ made, key.names a.1 → key.names b.1 → a.1 = b.1) :
    key.inFile? made = key.last? made := by
  rw [inFile?, last?]
  cases newest : key.newest? made with
  | none =>
    have unnamed : ∀ entry ∈ made, key.names entry.1 = false := by
      intro entry mem
      rw [newest?, List.getLast?_eq_none_iff, List.filter_eq_nil_iff] at newest
      exact Bool.eq_false_iff.mpr (newest entry.1 (Assignments.mem_names mem))
    have unfound : (made.reverse.find? fun entry => key.names entry.1) = none := by
      rw [List.find?_eq_none]
      exact fun entry mem => Bool.eq_false_iff.mp (unnamed entry (List.mem_reverse.mp mem))
    rw [unfound]
    rfl
  | some spelling =>
    obtain ⟨mem, named⟩ := List.mem_filter.mp (List.mem_of_getLast? newest)
    obtain ⟨first, hfirst, rfl⟩ := Assignments.exists_of_mem_names mem
    cases found : made.reverse.find? fun entry => key.names entry.1 with
    | none =>
      rw [List.find?_eq_none] at found
      exact absurd named (found first (List.mem_reverse.mpr hfirst))
    | some entry =>
      -- The last assignment to any spelling is the last one to this spelling.
      obtain ⟨alike, later, before, parts, others⟩ := List.find?_eq_some_iff_append.mp found
      have hentry : entry ∈ made := List.mem_reverse.mp (List.mem_of_find?_eq_some found)
      have latest : made.latest? first.1 = some entry.2 := by
        rw [one first hfirst entry hentry named alike, Assignments.latest?,
          List.lookup_eq_some_iff]
        refine ⟨later, before, parts, fun other mem => bne_iff_ne.mpr fun same => ?_⟩
        have unnamed := others other mem
        rw [← same, alike] at unnamed
        cases unnamed
      rw [Option.bind_some, Option.bind_some, latest]
      rfl

end DiceRoller.Settings
