import DiceRoller.Proofs.Report.Answering
import DiceRoller.Proofs.Roll.Journal
import DiceRoller.Proofs.Roll.Scripted

/-!
# The journal of a request

Dice are rolled silently. What a request leaves in the journal is told by its groups: one entry for
every result that failed, in order, then one for the request, and one more once it is answered.
A request that does not come to groups leaves entries of failures alone
(`journal_tells_groups`).
-/

namespace DiceRoller

/-- A line of the journal, without its time and place. -/
structure Entry where
  level : Level
  logger : String
  message : String
  deriving DecidableEq, Repr

namespace Entry

/-- Tells of the expression and of the fault that it failed with. -/
def failed (failure : String × Fault) : Entry :=
  ⟨.debug, "soloterm_dice.dice",
    "Roll failed for " ++ Event.quote failure.1 ++ ": " ++ failure.2.message⟩

def rolled (groups : Nat) : Entry :=
  ⟨.debug, "soloterm_dice.dice", "Rolled " ++ toString groups ++ " group(s)"⟩

def answered (text : String) : Entry :=
  ⟨.info, "soloterm_dice.server", "Rolled " ++ Event.quote text⟩

/-- The entry tells of a failure and is no other. -/
structure IsFailure (entry : Entry) : Prop where
  exists_failure : ∃ failure, entry = failed failure
  ne_rolled : ∀ groups, entry ≠ rolled groups
  ne_answered : ∀ text, entry ≠ answered text

theorem isFailure_failed (failure : String × Fault) : (failed failure).IsFailure where
  exists_failure := ⟨failure, rfl⟩
  ne_rolled := by
    intro groups same
    have starts := congrArg (fun entry => entry.message.toList.take 5) same
    simp [failed, rolled] at starts
  ne_answered := by
    intro text same
    simp [failed, answered] at same

end Entry

def Event.entry (event : Event) : Entry := ⟨event.level, event.channel.name, event.message⟩

def Played.entries {σ ε α : Type} (played : Played σ ε α) : List Entry :=
  played.journal.map Event.entry

def Result.failures (result : Result) : List (String × Fault) :=
  match result.outcome with
  | .ok _ => []
  | .error fault => [(result.text, fault)]

/-- The expressions that failed, each with its fault, in the order of the results. -/
def Group.failures (group : Group) : List (String × Fault) :=
  group.results.flatMap Result.failures

section Silence

variable {ε : Type} (die : Die) (threshold : Int)

theorem silent_explode (budget pending : Nat) (chain : List Int) (closed : List (List Int)) :
    (explode die threshold budget pending chain closed : Roll ε _).silent =
      explode die threshold budget pending chain closed := by
  fun_induction explode (ε := ε) die threshold budget pending chain closed with
  | case1 => rfl
  | case2 => rfl
  | case3 budget pending chain closed again next =>
    refine congrArg (Roll.draw die) (funext fun face => ?_)
    dsimp only
    split
    · exact again face
    · exact next face

theorem silent_reroll (budget : Nat) (pending : Int) (drawn : List Int) :
    (reroll die threshold budget pending drawn : Roll ε _).silent =
      reroll die threshold budget pending drawn := by
  induction budget generalizing pending drawn with
  | zero => rfl
  | succ budget ih =>
    unfold reroll
    split
    · rfl
    · exact congrArg (Roll.draw die) (funext fun face => ih _ _)

end Silence

namespace Expression

variable {α : Type} (e : Expression) (text : String) (cap : Int)

theorem silent_expanding (tally : α → Tally) {pool : Roll Failure (Option α)}
    (quiet : pool.silent = pool) :
    (e.expanding text cap tally pool).silent = e.expanding text cap tally pool := by
  unfold expanding
  split
  · rfl
  · rw [← Roll.bind_eq, Roll.silent_bind, quiet]
    refine congrArg (pool >>= ·) (funext fun rolled => ?_)
    cases rolled <;> rfl

theorem silent_roll : (e.roll text cap).silent = e.roll text cap := by
  unfold roll
  split
  · exact e.silent_expanding text cap _ (silent_explode _ _ _ _ _ _)
  · exact e.silent_expanding text cap _ (silent_reroll _ _ _ _ _)
  · rw [← Roll.bind_eq, Roll.silent_bind, Roll.silent_dice]
    rfl

theorem silent_readAndRoll (settings : Settings) :
    (readAndRoll settings text).silent = readAndRoll settings text := by
  unfold readAndRoll
  split
  · exact silent_roll _ _ _
  · rfl

end Expression

namespace Request

/-- The journal holds nothing but failures. -/
def OnlyFailures (journal : List Event) : Prop :=
  ∀ event ∈ journal, ∃ text fault, event = .expressionFailed text fault

def failed (failure : String × Fault) : Event := .expressionFailed failure.1 failure.2

variable {settings : Settings}

theorem leaves_noteFault {before : List Event} (h : OnlyFailures before) (result : Result) :
    (noteFault result).Leaves
      (fun made after => after = before ++ made.failures.map failed ∧ OnlyFailures after)
      OnlyFailures before := by
  unfold noteFault
  split
  · rename_i tally ok
    exact .value ⟨by simp [Result.failures, ok], h⟩
  · rename_i fault error
    refine .note (.value ⟨by simp [Result.failures, error, failed], ?_⟩)
    intro event hevent
    rcases List.mem_append.mp hevent with earlier | last
    · exact h event earlier
    · exact ⟨_, _, List.mem_singleton.mp last⟩

theorem leaves_rollExpression {before : List Event} (h : OnlyFailures before) (e : String) :
    (rollExpression settings e).Leaves
      (fun result after => after = before ++ result.failures.map failed ∧ OnlyFailures after)
      OnlyFailures before := by
  have dice := Roll.leaves_silent
    (Expression.readAndRoll settings (Expression.canonical e)).settle h
  rw [Roll.silent_settle, Expression.silent_readAndRoll] at dice
  unfold rollExpression
  apply dice.bind
  rintro outcome _ rfl
  exact leaves_noteFault h _

theorem leaves_rollLine {before : List Event} (h : OnlyFailures before) (line : Line) :
    (rollLine settings line).Leaves
      (fun group after => after = before ++ group.failures.map failed ∧ OnlyFailures after)
      OnlyFailures before := by
  unfold rollLine
  apply (Roll.Leaves.mapM h fun e _ _ hjournal => leaves_rollExpression hjournal e).bind
  rintro results _ ⟨rfl, honly⟩
  refine .value ⟨?_, honly⟩
  rw [Group.failures, List.map_flatMap]

/-- A request that is rolled to its end tells of its groups, and any other of failures alone. -/
theorem leaves_roll (text : String) :
    (roll settings text).Leaves
      (fun groups journal => journal =
        (groups.flatMap Group.failures).map failed ++ [.requestRolled groups.length])
      OnlyFailures [] := by
  have none : OnlyFailures [] := fun event h => absurd h List.not_mem_nil
  unfold roll rollLines
  apply (Roll.Leaves.mapM none fun line _ _ hjournal => leaves_rollLine hjournal line).bind
  rintro groups _ ⟨rfl, -⟩
  refine .note (.value ?_)
  rw [List.nil_append, List.map_flatMap]

section Shown

variable {journal : List Event}

theorem shown_debug (journal : List Event) : shown .debug journal = journal :=
  List.filter_eq_self.mpr fun event _ => by cases event <;> rfl

section Low

variable {level : Level} (above : level ≠ .debug) (low : ∀ event ∈ journal, event.level = .debug)

include above low

theorem shown_eq_nil : shown level journal = [] := by
  refine List.filter_eq_nil_iff.mpr fun event hevent => ?_
  rw [Event.shownAt, low event hevent]
  cases level <;> first | exact absurd rfl above | decide

theorem shown_answered (text : String) : shown level (journal ++ [.requestAnswered text]) =
    if level = .info then [.requestAnswered text] else [] := by
  have before := shown_eq_nil above low
  rw [shown] at before ⊢
  rw [List.filter_append, before]
  cases level <;> first | exact absurd rfl above | rfl

end Low

theorem OnlyFailures.level_eq (h : OnlyFailures journal) :
    ∀ event ∈ journal, event.level = .debug := by
  intro event hevent
  obtain ⟨text, fault, rfl⟩ := h event hevent
  rfl

theorem OnlyFailures.isFailure (h : OnlyFailures journal) :
    ∀ entry ∈ journal.map Event.entry, entry.IsFailure := by
  intro entry hentry
  obtain ⟨event, hevent, rfl⟩ := List.mem_map.mp hentry
  obtain ⟨text, fault, rfl⟩ := h event hevent
  exact Entry.isFailure_failed (text, fault)

end Shown

section Running

variable {σ : Type} [DiceSource σ] (settings : Settings) (clock : Clock) (text : String)
  (tray : Tray σ)

theorem entries_showing {ε α : Type} (r : Roll ε α) (level : Level) :
    ((r.showing level).run tray).entries =
      (shown level (r.run tray).journal).map Event.entry := by
  rw [Roll.run_showing]
  rfl

/-- How a request is rolled and what is then in the journal. -/
theorem journal_roll_cases :
    (∃ groups, ((roll settings text).run tray).ending = .finished groups ∧
      ((roll settings text).run tray).journal =
        (groups.flatMap Group.failures).map failed ++ [.requestRolled groups.length]) ∨
    (∀ groups, ((roll settings text).run tray).ending ≠ .finished groups) ∧
      OnlyFailures ((roll settings text).run tray).journal :=
  (leaves_roll text).run tray

theorem entries_of_groups {groups : List Group}
    (h : ((roll settings text).run tray).ending = .finished groups) :
    ((roll settings text).run tray).entries =
      (groups.flatMap Group.failures).map Entry.failed ++ [.rolled groups.length] := by
  rcases journal_roll_cases settings text tray with ⟨others, ending, journal⟩ | ⟨without, -⟩
  · cases ending.symm.trans h
    rw [Played.entries, journal, List.map_append, List.map_map]
    rfl
  · exact absurd h (without groups)

theorem onlyFailures_of_no_groups
    (h : ∀ groups, ((roll settings text).run tray).ending ≠ .finished groups) :
    OnlyFailures ((roll settings text).run tray).journal := by
  rcases journal_roll_cases settings text tray with ⟨groups, ending, -⟩ | ⟨-, only⟩
  · exact absurd ending (h groups)
  · exact only

theorem level_of_mem_journal_roll :
    ∀ event ∈ ((roll settings text).run tray).journal, event.level = .debug := by
  rcases journal_roll_cases settings text tray with ⟨groups, -, journal⟩ | ⟨-, only⟩
  · intro event hevent
    rw [journal] at hevent
    rcases List.mem_append.mp hevent with failure | last
    · obtain ⟨_, -, rfl⟩ := List.mem_map.mp failure
      rfl
    · rw [List.mem_singleton.mp last]
      rfl
  · exact only.level_eq

/-- An answer is the roll and then its own event, unless the groups cannot be displayed. -/
theorem run_answerNoting (filled : isBlank text = false) :
    (answerNoting settings clock text).run tray =
      ((roll settings text).run tray).andThen fun groups tray =>
        match Answer.ofGroups clock text groups with
        | .ok answer => ⟨.finished answer, tray, [.requestAnswered text]⟩
        | .error reason => ⟨.stopped reason, tray, []⟩ := by
  have parts : answerNoting settings clock text = roll settings text >>= fun groups =>
      Roll.ofExcept (Answer.ofGroups clock text groups) >>= fun answer =>
        Roll.noting (.requestAnswered text) >>= fun _ => pure answer := by
    simp [answerNoting, answer, filled]
  rw [parts, Roll.bind_eq, Roll.run_bind]
  congr 1
  funext groups tray
  cases Answer.ofGroups clock text groups <;> rfl

/-- An answer adds its event to the journal of the roll. Without an answer the journal is that of
the roll, or empty where the request was turned down before. -/
theorem journal_answer_cases :
    let rolled := (roll settings text).run tray
    let answered := (answerNoting settings clock text).run tray
    (∃ groups answer, rolled.ending = .finished groups ∧ answered.ending = .finished answer ∧
      answered.journal = rolled.journal ++ [.requestAnswered text]) ∨
    (∀ answer, answered.ending ≠ .finished answer) ∧
      (answered.journal = rolled.journal ∨ answered.journal = []) := by
  dsimp only
  cases filled : isBlank text with
  | true =>
    have refused : answerNoting settings clock text = .fail .emptyRequest := by
      simp only [answerNoting, answer, filled, if_true]
      rfl
    rw [refused]
    exact Or.inr ⟨fun answer => by simp [Roll.fail, Roll.run], Or.inr rfl⟩
  | false =>
    rw [run_answerNoting settings clock text tray filled]
    obtain ⟨ending, left, journal⟩ := (roll settings text).run tray
    cases ending with
    | stopped reason => exact Or.inr ⟨fun answer => by simp [Played.andThen], Or.inl rfl⟩
    | exhausted => exact Or.inr ⟨fun answer => by simp [Played.andThen], Or.inl rfl⟩
    | finished groups =>
      cases displayed : Answer.ofGroups clock text groups with
      | ok answer => exact Or.inl ⟨groups, answer, rfl, by simp [Played.andThen, displayed]⟩
      | error reason => exact Or.inr (by simp [Played.andThen, displayed])

/-- The level changes nothing about a roll and its answer but what is shown of the journal: at the
lowest level one entry for every failure and then one for the request, if it comes to its
groups, at the level above the answer alone, and at any other nothing. -/
theorem journal_tells_groups :
    let rolled (level : Level) := ((roll settings text).showing level).run tray
    let answered (level : Level) := ((answerNoting settings clock text).showing level).run tray
    (∀ level other, (rolled level).Alike (rolled other) ∧
      (answered level).Alike (answered other)) ∧
    (∀ groups, (rolled .debug).ending = .finished groups → (rolled .debug).entries =
      (groups.flatMap Group.failures).map Entry.failed ++ [.rolled groups.length]) ∧
    (∀ answer, (answered .debug).ending = .finished answer →
      ∃ groups, (rolled .debug).ending = .finished groups ∧
        (answered .debug).entries = (groups.flatMap Group.failures).map Entry.failed ++
          [.rolled groups.length, .answered text] ∧
        (answered .info).entries = [.answered text]) ∧
    ((∀ groups, (rolled .debug).ending ≠ .finished groups) →
      ∀ entry ∈ (rolled .debug).entries ++ (answered .debug).entries, entry.IsFailure) ∧
    ((∀ answer, (answered .debug).ending ≠ .finished answer) → (answered .info).entries = []) ∧
    ∀ level, level ≠ .debug → (rolled level).entries = [] ∧
      (level ≠ .info → (answered level).entries = []) := by
  dsimp only
  have low := level_of_mem_journal_roll settings text tray
  have answers := journal_answer_cases settings clock text tray
  dsimp only at answers
  simp only [entries_showing, shown_debug]
  simp only [Roll.run_showing]
  refine ⟨fun _ _ => ⟨⟨rfl, rfl⟩, ⟨rfl, rfl⟩⟩, fun groups => entries_of_groups settings text tray,
    ?_, ?_, ?_, ?_⟩
  · intro answer finished
    rcases answers with ⟨groups, _, ending, -, journal⟩ | ⟨without, -⟩
    · have told := entries_of_groups settings text tray ending
      rw [Played.entries] at told
      refine ⟨groups, ending, ?_, ?_⟩
      · rw [journal, List.map_append, told, List.append_assoc]
        rfl
      · rw [journal, shown_answered (by decide) low]
        rfl
    · exact absurd finished (without answer)
  · intro without entry hentry
    have only := onlyFailures_of_no_groups settings text tray without
    rcases List.mem_append.mp hentry with rolled | answered
    · exact only.isFailure entry rolled
    · rcases answers with ⟨groups, _, ending, -⟩ | ⟨-, same | none⟩
      · exact absurd ending (without groups)
      · exact only.isFailure entry (same ▸ answered)
      · simp [none] at answered
  · intro without
    rcases answers with ⟨_, answer, -, ending, -⟩ | ⟨-, same | none⟩
    · exact absurd ending (without answer)
    · rw [same, shown_eq_nil (by decide) low, List.map_nil]
    · rw [none, shown, List.filter_nil, List.map_nil]
  · intro level above
    refine ⟨by rw [shown_eq_nil above low, List.map_nil], fun higher => ?_⟩
    rcases answers with ⟨_, _, -, -, journal⟩ | ⟨-, same | none⟩
    · rw [journal, shown_answered above low, if_neg higher, List.map_nil]
    · rw [same, shown_eq_nil above low, List.map_nil]
    · rw [none, shown, List.filter_nil, List.map_nil]

end Running

theorem journal_tells_groups_of_two_lines :
    let text := "1d6, 3dX\nDamage: d8"
    let rolled := ((roll {} text).showing .debug).run (Script.tray [4, 2])
    let answered := ((answerNoting {} ⟨0, 0⟩ text).showing .debug).run (Script.tray [4, 2])
    ∃ groups answer, rolled.ending = .finished groups ∧ answered.ending = .finished answer ∧
      answered.entries = (groups.flatMap Group.failures).map Entry.failed ++
        [.rolled groups.length, .answered text] ∧
      answered.entries.map Entry.message =
        ["Roll failed for '3dx': [SYNTAX_ERROR] Expected 'NdX' or 'NdF' in '3dx'. " ++
          "Example: '2d6+3', '4d6kh3' or '6d10v8'.",
         "Rolled 2 group(s)", "Rolled '1d6, 3dX\\nDamage: d8'"] := by
  intro text rolled answered
  obtain ⟨-, -, told, -, unanswered, -⟩ :=
    journal_tells_groups {} ⟨0, 0⟩ text (Script.tray [4, 2])
  have finished : ∃ answer, answered.ending = .finished answer := by
    by_contra none
    have nothing := unanswered (not_exists.mp none)
    exact absurd nothing (by decide +kernel)
  obtain ⟨answer, ending⟩ := finished
  obtain ⟨groups, reached, entries, -⟩ := told answer ending
  exact ⟨groups, answer, reached, ending, entries, by decide +kernel⟩

end Request

end DiceRoller
