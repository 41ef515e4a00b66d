import DiceRoller.Proofs.Expression.Acceptance
import DiceRoller.Proofs.Expression.Canonical
import DiceRoller.Proofs.Pool.Drawing
import DiceRoller.Proofs.Pool.Expanding
import DiceRoller.Proofs.Roll.Threading
import DiceRoller.Proofs.Text.Pieces
import DiceRoller.Request.Rolling

/-!
# Complete results

A request whose numerals can all be read is rolled to its end: every line has its group, and
every expression of the line its result, in the order of the text (`roll_results_of_lines`).
What goes wrong with an expression shows in its own result and nowhere else.
-/

namespace DiceRoller.Request

open Numeral (ShortRuns)

theorem infix_of_mem_splitLabelChars (s : List Char) : (splitLabelChars s).2 <:+: s := by
  unfold splitLabelChars
  split
  · rename_i label rest cut
    rw [(cutAtLabel_eq_some cut).1]
    apply (Text.isInfix_trim rest).trans
    exact ((List.suffix_cons ':' rest).trans (List.suffix_append label _)).isInfix
  · exact List.infix_refl s

theorem infix_of_mem_lines {text e : String} {line : Line} (hline : line ∈ lines text)
    (he : e ∈ line.expressions) : e.toList <:+: text.toList := by
  obtain ⟨s, hs, rfl⟩ := List.mem_map.mp (List.mem_filter.mp hline).1
  obtain ⟨p, hp, rfl⟩ := List.mem_map.mp he
  have inLine : p <:+: (splitLabelChars s).2 := Text.infix_of_mem_pieces hp
  have inText : s <:+: text.toList := Text.infix_of_mem_pieces hs
  rw [String.toList_ofList]
  exact inLine.trans ((infix_of_mem_splitLabelChars s).trans inText)

variable {σ : Type} [DiceSource σ]

section Results

variable (settings : Settings) (before : Tray σ) (e : String)

/-- The expression is read, and rolling it would take more dice than allowed. -/
def Overflows : Prop :=
  ∃ expression detail, Expression.read settings.maxDice e = .ok expression ∧
    ((expression.roll (Expression.canonical e) settings.maxRolledDice).run before).ending =
      .stopped (.fault ⟨.overflow, detail⟩)

/-- What the result of an expression is when its roll starts from `before`. -/
structure ResultOf (result : Result) (after : Tray σ) : Prop where
  text_eq : result.text = Expression.canonical e
  fault : ∀ fault, result.outcome = .error fault →
    result.tally = ⟨[], [], 0⟩ ∧ fault.kind ∈ [.malformed, .outOfRange, .overflow]
  fault_iff : (∃ fault, result.outcome = .error fault) ↔
    (∃ failure, Expression.read settings.maxDice e = .error failure) ∨ Overflows settings before e
  tally : ∀ tally, result.outcome = .ok tally →
    ∃ expression, Expression.read settings.maxDice e = .ok expression ∧
      ((expression.roll (Expression.canonical e) settings.maxRolledDice).run before).ending =
        .finished tally
  after_eq : after =
    ((Expression.readAndRoll settings (Expression.canonical e)).run before).tray

end Results

structure GroupOf (settings : Settings) (before : Tray σ) (line : Line) (group : Group)
    (after : Tray σ) : Prop where
  label_eq : group.label = line.label
  results : Threaded (ResultOf settings) before line.expressions group.results after

variable {settings : Settings}

theorem finishes_noteFault (result : Result) (before : Tray σ) :
    (noteFault result).Finishes before fun made after => made = result ∧ after = before := by
  unfold noteFault
  cases result.outcome with
  | ok tally => exact ⟨result, before, [], rfl, rfl, rfl⟩
  | error fault => exact ⟨result, before, _, rfl, rfl, rfl⟩

section Rolling

variable {e : String} {before : Tray σ}

/-- The result of an expression is the outcome of its roll. -/
theorem finishes_rollExpression {outcome : Except Fault Tally}
    (h : Roll.settledEnding ((Expression.readAndRoll settings
      (Expression.canonical e)).run before).ending = .finished outcome) :
    (rollExpression settings e).Finishes before fun result after =>
      result = ⟨Expression.canonical e, outcome⟩ ∧
        after = ((Expression.readAndRoll settings (Expression.canonical e)).run before).tray := by
  unfold rollExpression
  apply (Roll.finishes_settle h).bind
  rintro made between ⟨rfl, left⟩
  obtain ⟨result, after, journal, run, same, kept⟩ :=
    finishes_noteFault ⟨Expression.canonical e, made⟩ between
  exact ⟨result, after, journal, run, same, kept.trans left⟩

theorem readAndRoll_of_ok {expression : Expression}
    (h : Expression.read settings.maxDice e = .ok expression) :
    Expression.readAndRoll settings (Expression.canonical e) =
      expression.roll (Expression.canonical e) settings.maxRolledDice := by
  rw [Expression.readAndRoll, Expression.read_canonical, h]

theorem readAndRoll_of_error {failure : Failure}
    (h : Expression.read settings.maxDice e = .error failure) :
    Expression.readAndRoll settings (Expression.canonical e) = .fail failure := by
  rw [Expression.readAndRoll, Expression.read_canonical, h]

/-- A fault of any cause stands in for the dice. -/
theorem finishes_of_fault {fault : Fault}
    (kind : fault.kind ∈ [.malformed, .outOfRange, .overflow])
    (cause : (∃ failure, Expression.read settings.maxDice e = .error failure) ∨
      Overflows settings before e)
    (h : Roll.settledEnding ((Expression.readAndRoll settings
      (Expression.canonical e)).run before).ending = .finished (.error fault)) :
    (rollExpression settings e).Finishes before (ResultOf settings before e) := by
  obtain ⟨result, after, journal, run, rfl, left⟩ := finishes_rollExpression h
  refine ⟨_, after, journal, run, rfl, ?_, ⟨fun _ => cause, fun _ => ⟨fault, rfl⟩⟩, by simp, left⟩
  intro other same
  obtain rfl := Except.error.inj same
  exact ⟨rfl, kind⟩

theorem finishes_of_refused {fault : Fault}
    (kind : fault.kind ∈ [.malformed, .outOfRange, .overflow])
    (h : Expression.read settings.maxDice e = .error (.fault fault)) :
    (rollExpression settings e).Finishes before (ResultOf settings before e) := by
  apply finishes_of_fault kind (Or.inl ⟨_, h⟩)
  rw [readAndRoll_of_error h]
  rfl

section Read

variable {expression : Expression} (h : Expression.read settings.maxDice e = .ok expression)

include h

theorem finishes_of_overflow {detail : String}
    (ending : ((expression.roll (Expression.canonical e) settings.maxRolledDice).run before).ending =
      .stopped (.fault ⟨.overflow, detail⟩)) :
    (rollExpression settings e).Finishes before (ResultOf settings before e) := by
  have stopped : Roll.settledEnding ((Expression.readAndRoll settings
      (Expression.canonical e)).run before).ending = .finished (.error ⟨.overflow, detail⟩) := by
    rw [readAndRoll_of_ok h, ending]
    rfl
  exact finishes_of_fault (by simp) (Or.inr ⟨expression, detail, h, ending⟩) stopped

variable {tally : Tally}
  (ending : ((expression.roll (Expression.canonical e) settings.maxRolledDice).run before).ending =
    .finished tally)

include ending

theorem settledEnding_of_finished : Roll.settledEnding ((Expression.readAndRoll settings
    (Expression.canonical e)).run before).ending = .finished (.ok tally) := by
  rw [readAndRoll_of_ok h, ending]
  rfl

theorem finishes_of_finished :
    (rollExpression settings e).Finishes before (ResultOf settings before e) := by
  obtain ⟨result, after, journal, run, rfl, left⟩ :=
    finishes_rollExpression (settledEnding_of_finished h ending)
  refine ⟨_, after, journal, run, rfl, by simp, ?_, ?_, left⟩
  · have accepted : ¬ ∃ failure, Expression.read settings.maxDice e = .error failure := by simp [h]
    have within : ¬ Overflows settings before e := by
      rintro ⟨other, detail, read, stopped⟩
      obtain rfl := Except.ok.inj (h.symm.trans read)
      simp [ending] at stopped
    simp [accepted, within]
  · intro other same
    obtain rfl := Except.ok.inj same
    exact ⟨expression, h, ending⟩

end Read

end Rolling

section Answered

variable (answers : Answers σ fun _ _ => True) (hdice : settings.maxDice.natAbs < Numeral.bound)
  (hcap : settings.maxRolledDice.natAbs < Numeral.bound)

include answers hdice hcap

theorem finishes_expression {e : String} (short : ShortRuns e.toList) (before : Tray σ) :
    (rollExpression settings e).Finishes before (ResultOf settings before e) := by
  rcases Expression.read_cases hdice short with ⟨p, -, within, read⟩ | ⟨-, -, -, detail, read⟩ |
    ⟨-, detail, read⟩
  · have sound := Expression.tooFewSides_eq_false_iff.mpr within.two_le_sides
    obtain ⟨detail, overflow⟩ := Failure.overflow_eq_fault (Expression.canonical e) hcap
    rcases (Expression.ensures_roll sound (Expression.canonical e)
      settings.maxRolledDice).run answers before with ⟨tally, -, ending⟩ |
      ⟨failure, same, ending⟩
    · exact finishes_of_finished read ending
    · rw [same, overflow] at ending
      exact finishes_of_overflow read ending
  · exact finishes_of_refused (by simp) read
  · exact finishes_of_refused (by simp) read

theorem finishes_line {line : Line} (short : ∀ e ∈ line.expressions, ShortRuns e.toList)
    (before : Tray σ) :
    (rollLine settings line).Finishes before (GroupOf settings before line) := by
  unfold rollLine
  apply (Roll.Finishes.mapM (fun e he => finishes_expression answers hdice hcap (short e he))
    before).bind
  intro results after threaded
  exact .of_pure ⟨rfl, threaded⟩

/-- Rolling gives every line of a request its group and every expression its result. -/
theorem roll_results_of_lines {text : String} (short : ShortRuns text.toList) (before : Tray σ) :
    (roll settings text).Finishes before fun groups after =>
      Threaded (GroupOf settings) before (lines text) groups after := by
  have each : ∀ line ∈ lines text, ∀ tray : Tray σ,
      (rollLine settings line).Finishes tray (GroupOf settings tray line) := by
    intro line hline
    exact finishes_line answers hdice hcap fun e he => short.of_infix (infix_of_mem_lines hline he)
  unfold roll rollLines
  apply (Roll.Finishes.mapM each before).bind
  intro groups after threaded
  apply (Roll.finishes_noting _ after).bind
  rintro - _ rfl
  exact .of_pure threaded

end Answered

theorem roll_results_of_two_lines :
    let settings : Settings := {}
    let text := "Attack: 1d20+5, 3dX\n2d6rv1"
    Answers Seeded (fun _ _ => True) ∧ settings.maxDice.natAbs < Numeral.bound ∧
      settings.maxRolledDice.natAbs < Numeral.bound ∧ ShortRuns text.toList ∧
      lines text = [⟨some "Attack", ["1d20+5", "3dX"]⟩, ⟨none, ["2d6rv1"]⟩] ∧
      (roll settings text).Finishes (⟨.ofSeed 3, 0⟩ : Tray Seeded) fun groups after =>
        Threaded (GroupOf settings) ⟨.ofSeed 3, 0⟩ (lines text) groups after := by
  intro settings text
  have answers : Answers Seeded (fun _ _ => True) := answers_seeded.mono fun _ _ _ => trivial
  have hdice : settings.maxDice.natAbs < Numeral.bound := by decide +kernel
  have hcap : settings.maxRolledDice.natAbs < Numeral.bound := by decide +kernel
  have short : ShortRuns text.toList := .of_length_le (by decide)
  exact ⟨answers, hdice, hcap, short, by decide +kernel,
    roll_results_of_lines answers hdice hcap short ⟨.ofSeed 3, 0⟩⟩

end DiceRoller.Request
