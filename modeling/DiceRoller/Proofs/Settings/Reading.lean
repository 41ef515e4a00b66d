import DiceRoller.Proofs.Settings.Documented
import DiceRoller.Proofs.Settings.Limits

/-!
# Settings in range

The text that counts for a setting comes from the environment, else from the file, and for each of
the two limits it is read on its own. So settings are read exactly if both limits are, and a
refusal tells of every limit that is not and of nothing else (`read_effective`). That holds of all
readers that do what is documented of them.
-/

namespace DiceRoller.Settings

open EnvFile (Assignments FileLine)

namespace Readers

variable (readers : Readers)

/-- The settings are what the texts that count say of them. -/
structure Agree (effective : Key → Option (List Char)) (settings : Settings) : Prop where
  maxDice : Limits readers.Reads 1000 (effective .maxDice) settings.maxDice
  maxRolledDice : Limits readers.Reads 100 (effective .maxRolledDice) settings.maxRolledDice
  logLevel : settings.logLevel = level effective

/-- The refusal has one item for every limit whose text is flawed, and no other. -/
structure Reports (effective : Key → Option (List Char)) (refusal : Refusal) : Prop where
  ne_nil : refusal.problems ≠ []
  sublist : (refusal.problems.map (·.1)).Sublist [.maxDice, .maxRolledDice]
  mem_iff : ∀ key problem, (key, problem) ∈ refusal.problems ↔
    key ≠ .logLevel ∧ ∃ text, effective key = some text ∧ Flawed readers.Reads text problem
  /-- Too long is said of long texts alone. -/
  tooLong : ∀ key, (key, .misread .tooLong) ∈ refusal.problems →
    ∃ text, effective key = some text ∧ Numeral.maxDigits < text.length

/-- What reading settings comes to where `effective` gives the texts that count. -/
structure Settles (effective : Key → Option (List Char)) (result : Except Refusal Settings) :
    Prop where
  ok_iff : (∃ settings, result = .ok settings) ↔
    (∃ n, Limits readers.Reads 1000 (effective .maxDice) n) ∧
      ∃ n, Limits readers.Reads 100 (effective .maxRolledDice) n
  agree : ∀ settings, result = .ok settings →
    readers.Agree effective settings ∧ 1 ≤ settings.maxDice ∧ 1 ≤ settings.maxRolledDice
  reports : ∀ refusal, result = .error refusal → readers.Reports effective refusal
  /-- Limits that are written as documented are the settings. -/
  ok_of_readsAs : ∀ dice rolled, Limits ReadsAs 1000 (effective .maxDice) dice →
    Limits ReadsAs 100 (effective .maxRolledDice) rolled →
    result = .ok ⟨dice, rolled, level effective⟩
  /-- Texts that are documented to be no limit are reported. -/
  error_of_readsAs : ∀ key text problem, key ≠ .logLevel → effective key = some text →
    Flawed ReadsAs text problem →
    ∃ refusal, result = .error refusal ∧ (key, problem) ∈ refusal.problems

variable {readers} {given : Key → Option (List Char)}

theorem Agree.one_le {settings : Settings} (h : readers.Agree given settings) :
    1 ≤ settings.maxDice ∧ 1 ≤ settings.maxRolledDice :=
  ⟨h.maxDice.one_le (by decide), h.maxRolledDice.one_le (by decide)⟩

theorem agree_of_ok {settings : Settings} (ok : readers.ofGiven given = .ok settings) :
    readers.Agree given settings := by
  rcases readers.ofGiven_cases given with ⟨dice, rolled, hdice, hrolled, eq⟩ | ⟨-, refused⟩
  · obtain rfl := Except.ok.inj (ok.symm.trans eq)
    exact ⟨readLimit_eq_ok_iff.mp hdice, readLimit_eq_ok_iff.mp hrolled, rfl⟩
  · rw [refused] at ok
    cases ok

namespace Documented

variable (documented : readers.Documented)

include documented

theorem reports_of_error {refusal : Refusal} (refused : readers.ofGiven given = .error refusal) :
    readers.Reports given refusal := by
  rcases readers.ofGiven_cases given with ⟨_, _, -, -, ok⟩ | ⟨ne, eq⟩
  · rw [ok] at refused
    cases refused
  · obtain rfl := Except.error.inj (refused.symm.trans eq)
    refine ⟨ne, sublist_allItems, fun key problem => mem_allItems_iff, fun key mem => ?_⟩
    obtain ⟨-, text, counts, ⟨long⟩⟩ := mem_allItems_iff.mp mem
    exact ⟨text, counts, documented.tooLong long⟩

theorem settles (given : Key → Option (List Char)) :
    readers.Settles given (readers.ofGiven given) where
  ok_iff := by
    constructor
    · rintro ⟨settings, ok⟩
      have agree := agree_of_ok ok
      exact ⟨⟨_, agree.maxDice⟩, _, agree.maxRolledDice⟩
    · rintro ⟨⟨dice, hdice⟩, rolled, hrolled⟩
      exact ⟨_, ofGiven_of_limits hdice hrolled⟩
  agree settings ok := ⟨agree_of_ok ok, (agree_of_ok ok).one_le⟩
  reports refusal refused := documented.reports_of_error refused
  ok_of_readsAs dice rolled hdice hrolled :=
    ofGiven_of_limits (hdice.mono documented.integer) (hrolled.mono documented.integer)
  error_of_readsAs key text problem limit counts flawed := by
    have mem : (key, problem) ∈ readers.allItems given :=
      mem_allItems_iff.mpr ⟨limit, text, counts, flawed.mono documented.integer⟩
    exact ⟨_, ofGiven_of_allItems (List.ne_nil_of_mem mem), mem⟩

end Documented

end Readers

def chars (environment : List (String × String)) : List (List Char × List Char) :=
  environment.map fun entry => (entry.1.toList, entry.2.toList)

theorem Readers.Documented.read_eq {readers : Readers} (documented : readers.Documented)
    {environment : List (String × String)} (distinct : Distinct (chars environment))
    (file : String) :
    readers.read environment file = readers.ofGiven fun key =>
      key.effective? (chars environment)
        (readers.assignments (chars environment) file.toList) := by
  unfold Readers.read Readers.readChars
  exact congrArg readers.ofGiven (funext (documented.given?_eq_effective? distinct _))

section Examples

/-- The limit of dice, with all that may stand around it. -/
def spacedLimit : IntegerText where
  before := [' ']
  mark := .plus
  groups := ["00".toList, "50".toList]
  zeros := 1
  after := [' ']
  space := List.all_eq_true.mp (by decide)
  ne_nil := List.cons_ne_nil _ _
  filled := by simp
  digits := by simp
  unpadded := nofun

def plainLimit (digit : Char) (h : digit.isDigit = true) : IntegerText where
  before := []
  mark := .none
  groups := [[digit]]
  zeros := 0
  after := []
  space := nofun
  ne_nil := List.cons_ne_nil _ _
  filled := by simp
  digits := by simpa using h
  unpadded := nofun

/-- The limit of rolled dice, with all that may stand around it in a file. -/
def quotedLimit : EnvFile.Assigning where
  exported := true
  name := "SOLOTERM_DICE_MAX_ROLLED_DICE".toList
  before := [' ']
  after := [' ']
  style := .single
  value := ['7']
  comment := some " some".toList
  ne_nil := by decide
  ne_export := by decide
  inName c hc := by
    have all : ("SOLOTERM_DICE_MAX_ROLLED_DICE".toList.all (!EnvFile.endsName ·)) = true := by
      decide
    simpa using List.all_eq_true.mp all c hc
  unquoted := by decide
  blanks := List.all_eq_true.mp (by decide)
  bare := nofun
  unbroken := by simp
  filled := nofun
  ends _ := by decide

end Examples

section Dice

variable {readers : Readers} (documented : readers.Documented)

include documented

theorem read_of_dice (text : String) :
    readers.read [("SOLOTERM_DICE_MAX_DICE", text)] "" =
      readers.ofGiven fun key => if key = .maxDice then some text.toList else none := by
  have named (key : Key) :
      key.names "SOLOTERM_DICE_MAX_DICE".toList = decide (key = .maxDice) := by
    cases key <;> decide +kernel
  have empty (environment : List (List Char × List Char)) :
      readers.assignments environment "".toList = [] :=
    documented.line_by_line environment [] (by decide) (by decide)
  have distinct : Distinct (chars [("SOLOTERM_DICE_MAX_DICE", text)]) := List.nodup_singleton _
  rw [documented.read_eq distinct, empty]
  refine congrArg readers.ofGiven (funext fun key => ?_)
  have outside : key.inFile? [] = none := rfl
  rw [Key.effective?, outside, Option.or_none, Key.inEnvironment?, chars, List.map_singleton,
    List.find?_singleton, named]
  cases key <;> rfl

theorem read_of_misread_dice {text : String} {why : Misreading}
    (h : readers.integer text.toList = .error why) :
    readers.read [("SOLOTERM_DICE_MAX_DICE", text)] "" = .error ⟨[(.maxDice, .misread why)]⟩ := by
  have refused : readers.readLimit .maxDice 1000 (some text.toList) =
      .error (.maxDice, .misread why) := Readers.readLimit_of_error h
  have items : readers.allItems (fun key => if key = .maxDice then some text.toList else none) =
      [(.maxDice, .misread why)] := by
    rw [Readers.allItems, Readers.diceLimit, if_pos rfl, refused]
    rfl
  rw [read_of_dice documented, Readers.ofGiven_of_allItems (by simp [items]), items]

end Dice

end DiceRoller.Settings
