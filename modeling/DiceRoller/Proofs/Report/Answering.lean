import DiceRoller.Proofs.Expression.Aborting
import DiceRoller.Proofs.Report.Shown
import DiceRoller.Proofs.Request.Completeness
import DiceRoller.Proofs.Roll.Silent
import DiceRoller.Report.Answer

/-!
# Requests that are answered

A blank request is turned down before anything is rolled. Any other is answered, with what goes
wrong in an expression told in its own report, unless a number has too many digits. There
are two ways to that: a numeral that is too long to be read, and a total that is too long to
be written although the numbers it is made of are not. Numbers with at most half of the digits
that can be written lead to neither (`answer_or_excess`).
-/

namespace DiceRoller

namespace Request

/-- No number of the request, and no pool in it, takes more than half of the digits that can be
written. -/
structure Moderate (settings : Settings) (text : String) : Prop where
  runs : Numeral.RunsWithin (Numeral.maxDigits / 2) text.toList
  cap : settings.maxRolledDice.natAbs < Numeral.root

/-- The reason to stop is a limit on digits, and the request is one that can meet it. -/
structure Excess (settings : Settings) (text : String) (reason : Abort) : Prop where
  ofDigits : reason.OfDigits
  not_moderate : ¬ Moderate settings text

/-- What can be told of an expression from its result. -/
structure Told (settings : Settings) (text e : String) (result : Result) : Prop where
  text_eq : result.text = Expression.canonical e
  refused : ∀ fault, Expression.read settings.maxDice e = .error (.fault fault) →
    result.outcome = .error fault
  writable : Moderate settings text → ∀ tally, result.outcome = .ok tally → tally.Writable

structure ToldLine (settings : Settings) (text : String) (line : Line) (group : Group) : Prop where
  label_eq : group.label = line.label
  results : List.Forall₂ (Told settings text) line.expressions group.results

variable {settings : Settings} {text e : String} (hdice : 1 ≤ settings.maxDice)
  (inside : e.toList <:+: text.toList)

section Reading

include hdice inside

/-- An expression of a moderate request is refused with a fault, or it is modest. -/
theorem read_of_moderate (moderate : Moderate settings text) :
    (∃ expression, Expression.read settings.maxDice e = .ok expression ∧ expression.Modest) ∨
      ∃ fault, Expression.read settings.maxDice e = .error (.fault fault) := by
  have runs := moderate.runs.of_infix inside
  have short := runs.shortRuns (Nat.div_le_self _ 2)
  have quotable : 0 ≤ settings.maxDice ∨ settings.maxDice.natAbs < Numeral.bound :=
    Or.inl (Int.le_trans (by decide) hdice)
  rcases Expression.read_cases_of_quotable quotable short with
    ⟨p, chars, -, read⟩ | ⟨-, -, -, detail, read⟩ | ⟨-, detail, read⟩
  · refine Or.inl ⟨p.expression, read, Expression.Phrase.modest_expression ?_⟩
    rw [chars]
    exact Expression.runsWithin_canonical runs
  · exact Or.inr ⟨_, read⟩
  · exact Or.inr ⟨_, read⟩

theorem modest_of_read {expression : Expression}
    (h : Expression.read settings.maxDice e = .ok expression) (moderate : Moderate settings text) :
    expression.Modest := by
  rcases read_of_moderate hdice inside moderate with ⟨other, read, modest⟩ | ⟨fault, read⟩
  · rwa [Except.ok.inj (h.symm.trans read)]
  · simp [h] at read

theorem excess_of_read {reason : Abort}
    (h : Expression.read settings.maxDice e = .error (.abort reason)) :
    Excess settings text reason := by
  constructor
  · exact ((Expression.yields_read settings.maxDice e).of_eq_error h).of_eq_abort rfl
  · intro moderate
    rcases read_of_moderate hdice inside moderate with ⟨other, read, -⟩ | ⟨fault, read⟩
    · simp [h] at read
    · simp [h] at read

end Reading

theorem excess_of_overflow {words : String} {reason : Abort}
    (h : Failure.overflow words settings.maxRolledDice = .abort reason) :
    Excess settings text reason := by
  constructor
  · exact (Failure.keepsLine_overflow words settings.maxRolledDice).of_eq_abort h
  · intro moderate
    obtain ⟨detail, fault⟩ := Failure.overflow_eq_fault words
      (moderate.cap.trans_le Numeral.root_le_bound)
    simp [h] at fault

section Rolling

include hdice inside

theorem ensures_readAndRoll : (Expression.readAndRoll settings (Expression.canonical e)).Ensures
    Die.Shows (fun tally => Told settings text e ⟨Expression.canonical e, .ok tally⟩)
    (Failure.Meets (fun fault => Told settings text e (.failed (Expression.canonical e) fault))
      (Excess settings text)) := by
  cases h : Expression.read settings.maxDice e with
  | error failure =>
    rw [readAndRoll_of_error h]
    cases failure with
    | abort reason => exact .reason (.abort (excess_of_read hdice inside h))
    | fault fault =>
      refine .reason (.fault ⟨rfl, ?_, fun _ tally same => by simp [Result.failed] at same⟩)
      intro other same
      rw [Failure.fault.inj (Except.error.inj (h.symm.trans same))]
      rfl
  | ok expression =>
    have within := (Expression.yields_read settings.maxDice e).of_eq_ok h
    have sound := Expression.tooFewSides_eq_false_iff.mpr within.two_le_sides
    rw [readAndRoll_of_ok h]
    apply (Expression.ensures_roll sound _ _).mono
    · rintro tally ⟨faces, drawn, made⟩
      refine ⟨rfl, by simp [h], ?_⟩
      intro moderate other same
      have modest := modest_of_read hdice inside h moderate
      have count := modest.count
      have cap := moderate.cap
      rw [← Except.ok.inj same, made]
      exact Expression.writable_tallyOf modest (by omega) drawn
    · intro failure same
      cases failure with
      | abort reason => exact .abort (excess_of_overflow same.symm)
      | fault fault =>
        exact .fault ⟨rfl, by simp [h], fun _ tally same => by simp [Result.failed] at same⟩

theorem ensures_rollExpression :
    (rollExpression settings e).Ensures Die.Shows (Told settings text e) (Excess settings text) := by
  unfold rollExpression
  apply (Roll.ensures_settle (ensures_readAndRoll hdice inside)).bind
  intro outcome told
  unfold noteFault
  cases told with
  | ok told => exact .value told
  | error told => exact .note (.value told)

end Rolling

include hdice in
theorem ensures_rollLine {line : Line}
    (inside : ∀ e ∈ line.expressions, e.toList <:+: text.toList) :
    (rollLine settings line).Ensures Die.Shows (ToldLine settings text line)
      (Excess settings text) := by
  have each : (line.expressions.mapM (rollExpression settings)).Ensures Die.Shows
      (List.Forall₂ (Told settings text) line.expressions) (Excess settings text) :=
    Roll.Ensures.mapM fun e he => ensures_rollExpression hdice (inside e he)
  unfold rollLine
  apply each.bind
  intro results told
  exact .value ⟨rfl, told⟩

include hdice in
theorem ensures_roll (text : String) :
    (roll settings text).Ensures Die.Shows
      (List.Forall₂ (ToldLine settings text) (lines text)) (Excess settings text) := by
  have each : (rollLines settings (lines text)).Ensures Die.Shows
      (List.Forall₂ (ToldLine settings text) (lines text)) (Excess settings text) :=
    Roll.Ensures.mapM fun line hline =>
      ensures_rollLine hdice fun e he => infix_of_mem_lines hline he
  unfold roll
  apply each.bind
  intro groups told
  exact (Roll.ensures_noting _).bind fun _ _ => .value told

section Reporting

/-- What a report says about an expression. -/
structure Reported (settings : Settings) (e : String) (report : Report) : Prop where
  text_eq : report.text = Expression.canonical e
  refused : ∀ fault, Expression.read settings.maxDice e = .error (.fault fault) →
    report.outcome = .error fault.message

structure ReportedLine (settings : Settings) (line : Line) (group : GroupReport) : Prop where
  label_eq : group.label = line.label
  reports : List.Forall₂ (Reported settings) line.expressions group.reports

/-- The answer has a report for every expression of the request. -/
structure AnswerTo (settings : Settings) (text : String) (answer : Answer) : Prop where
  request_eq : answer.request = text
  groups : List.Forall₂ (ReportedLine settings) (lines text) answer.groups

theorem yields_tally_text {tally : Tally} (writable : Moderate settings text → tally.Writable) :
    Yields (fun _ => True) (Excess settings text) tally.text := by
  apply tally.yields_text.mono fun _ _ => trivial
  intro reason long
  refine ⟨?_, fun moderate => long.2 (writable moderate)⟩
  rw [long.1]
  trivial

variable {result : Result} (told : Told settings text e result)

include told

theorem Told.yields_report : Yields (Reported settings e) (Excess settings text) result.report := by
  unfold Result.report
  cases h : result.outcome with
  | error fault =>
    refine .ok ⟨told.text_eq, ?_⟩
    intro other refused
    rw [Except.error.inj (h.symm.trans (told.refused other refused))]
  | ok tally =>
    apply (yields_tally_text fun moderate => told.writable moderate tally h).bind
    intro display _
    refine .ok ⟨told.text_eq, ?_⟩
    intro fault refused
    have failed := told.refused fault refused
    simp [h] at failed

theorem Told.yields_entry : Yields (fun _ => True) (Excess settings text) result.entry := by
  unfold Result.entry Result.display
  cases h : result.outcome with
  | error fault => exact .ok trivial
  | ok tally =>
    apply (yields_tally_text fun moderate => told.writable moderate tally h).bind
    intro display _
    exact .ok trivial

omit told in
theorem yields_answer (clock : Clock) {groups : List Group}
    (told : List.Forall₂ (ToldLine settings text) (lines text) groups) :
    Yields (AnswerTo settings text) (Excess settings text)
      (Answer.ofGroups clock text groups) := by
  have reports : Yields (List.Forall₂ (ReportedLine settings) (lines text))
      (Excess settings text) (groups.mapM Group.report) := by
    apply Yields.mapM_of_forall₂ told
    intro line group _ told
    apply (Yields.mapM_of_forall₂ told.results fun e result _ told => told.yields_report).bind
    intro reports reported
    exact .ok ⟨told.label_eq, reported⟩
  have written : Yields (fun _ => True) (Excess settings text) (groupsText groups) := by
    have each (line : Line) (group : Group) (told : ToldLine settings text line group) :
        Yields (fun _ => True) (Excess settings text) group.text :=
      (Yields.mapM_of_forall₂ told.results fun e result _ told => told.yields_entry).bind
        fun _ _ => .ok trivial
    exact (Yields.mapM_of_forall₂ told fun line group _ told => each line group told).bind
      fun _ _ => .ok trivial
  apply reports.bind
  intro reports reported
  exact written.bind fun _ _ => .ok ⟨rfl, reported⟩

end Reporting

include hdice in
theorem ensures_answer (clock : Clock) (filled : isBlank text = false) :
    (answer settings clock text).Ensures Die.Shows (AnswerTo settings text)
      (Excess settings text) := by
  unfold answer
  rw [filled]
  apply (ensures_roll hdice text).bind
  intro groups told
  exact Roll.ensures_ofExcept (yields_answer clock told)

theorem silent_answerNoting (settings : Settings) (clock : Clock) (text : String) :
    (answerNoting settings clock text).silent = (answer settings clock text).silent := by
  simp only [answerNoting, Roll.silent_bind, Roll.silent_noting, Roll.silent_pure, pure_bind,
    bind_pure]

section Running

variable {σ : Type} [DiceSource σ]

/-- A blank request is turned down without a draw. Any other is answered expression by
expression, or it stops over a number of too many digits, which no moderate request does. It
is the same for a request that leaves an event of its own. -/
theorem answer_or_excess (hdice : 1 ≤ settings.maxDice)
    (answers : Answers σ Die.Shows) (clock : Clock) (text : String) (tray : Tray σ) :
    (isBlank text = true →
      (answer settings clock text).run tray = ⟨.stopped .emptyRequest, tray, []⟩) ∧
    (isBlank text = false →
      (∃ answered, ((answer settings clock text).run tray).ending = .finished answered ∧
        AnswerTo settings text answered) ∨
      ∃ reason, ((answer settings clock text).run tray).ending = .stopped reason ∧
        Excess settings text reason) ∧
    ((answerNoting settings clock text).run tray).Alike ((answer settings clock text).run tray) := by
  refine ⟨?_, ?_, Roll.alike_of_silent_eq (silent_answerNoting settings clock text) tray⟩
  · intro blank
    unfold answer
    rw [blank]
    rfl
  · intro filled
    rcases (ensures_answer hdice clock filled).run answers tray with
      ⟨answered, told, ending⟩ | ⟨reason, excess, ending⟩
    · exact Or.inl ⟨answered, ending, told⟩
    · exact Or.inr ⟨reason, ending, excess⟩

end Running

theorem answer_attack_and_refused :
    let settings : Settings := {}
    let tray : Tray Seeded := ⟨.ofSeed 5, 0⟩
    let text := "Attack: 1d20+5, 3dX"
    1 ≤ settings.maxDice ∧ Answers Seeded Die.Shows ∧ isBlank text = false ∧
      Moderate settings text ∧
      ∃ answered, ((answer settings ⟨0, 0⟩ text).run tray).ending = .finished answered ∧
        AnswerTo settings text answered := by
  intro settings tray text
  have hdice : 1 ≤ settings.maxDice := by decide
  have filled : isBlank text = false := by decide +kernel
  have moderate : Moderate settings text :=
    ⟨.of_length_le (by decide), show (100 : Int).natAbs < Numeral.root by decide +kernel⟩
  refine ⟨hdice, answers_seeded, filled, moderate, ?_⟩
  rcases (answer_or_excess hdice answers_seeded ⟨0, 0⟩ text tray).2.1 filled with
    answered | ⟨reason, -, excess⟩
  · exact answered
  · exact absurd moderate excess.not_moderate

end Request

end DiceRoller
