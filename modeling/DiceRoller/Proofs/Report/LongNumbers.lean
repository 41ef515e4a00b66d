import DiceRoller.Proofs.Expression.Writing
import DiceRoller.Proofs.Report.Answering
import DiceRoller.Proofs.Request.Rendering

/-!
# Numbers of too many digits

A request that is one phrase gets no answer if the count of the phrase has more digits than can
be read (`answer_of_long_count`). It does not matter what number they make: zeros before the
count of a single die are enough. And a request of one expression gets none if a total comes
out that has more digits than can be written (`answer_of_long_total`), which can happen when
every number in the request is short enough to be read.
-/

namespace DiceRoller

namespace Expression.Phrase

/-- The text that is the phrase and nothing else. -/
def text (p : Phrase) : String := String.ofList p.chars

theorem toList_text (p : Phrase) : p.text.toList = p.chars := String.toList_ofList

theorem canonical_text (p : Phrase) : canonical p.text = p.text := by
  rw [canonical, toList_text, canonicalChars_chars, text]

theorem d_mem_chars (p : Phrase) : 'd' ∈ p.chars :=
  List.mem_append_right p.countChars List.mem_cons_self

theorem isPiece_text (p : Phrase) : Text.IsPiece [',', ':', '\n'] p.text.toList := by
  rw [toList_text]
  refine ⟨List.ne_nil_of_mem p.d_mem_chars, ?_, ?_⟩
  · exact Text.trim_of_no_blank fun c hc => (isSymbol_of_mem_chars hc).isPlain.not_blank
  · intro sep hsep mem
    exact (isSymbol_of_mem_chars mem).not_mem_separators hsep

theorem isBlank_text (p : Phrase) : Request.isBlank p.text = false := by
  rw [Request.isBlank, toList_text, List.all_eq_false]
  exact ⟨'d', p.d_mem_chars, by decide⟩

end Expression.Phrase

namespace Request

/-- An abort in the reading of the one expression of a request ends the request. -/
theorem answer_of_abort {settings : Settings} {text e : String} {reason : Abort} (clock : Clock)
    (filled : isBlank text = false) (line : lines text = [⟨none, [e]⟩])
    (h : Expression.read settings.maxDice e = .error (.abort reason)) :
    answer settings clock text = .fail reason := by
  have expression : rollExpression settings e = .fail reason := by
    rw [rollExpression, readAndRoll_of_error h]
    rfl
  have rolled : roll settings text = .fail reason := by
    rw [roll, rollLines, line, List.mapM_cons, rollLine, List.mapM_cons, expression]
    rfl
  rw [answer, filled, rolled]
  rfl

theorem answer_of_long_count (settings : Settings) (clock : Clock) {p : Expression.Phrase}
    {digits : Expression.Digits} (count : p.count = some digits)
    (long : Numeral.maxDigits < digits.chars.length) :
    answer settings clock p.text = .fail (.longNumeral digits.chars.length) := by
  have refused := Expression.readCanonical_of_long_count settings.maxDice p.toList_text.symm
    count long
  rw [← p.canonical_text] at refused
  exact answer_of_abort clock p.isBlank_text (lines_of_isPiece p.isPiece_text) refused

/-- One die with zeros before its count, asked of a source that answers, is not rolled. -/
theorem answer_stopped_by_zeros :
    let p : Expression.Phrase := ⟨some (.ofNat 4300 1), some (.ofNat 0 6), none, none⟩
    p.chars = List.replicate 4300 '0' ++ ['1', 'd', '6'] ∧
      p.expression = ⟨1, .numbered 6, none, none⟩ ∧ Answers Seeded Die.Shows ∧
      isBlank p.text = false ∧
      ((answer {} ⟨0, 0⟩ p.text).run (⟨.ofSeed 0, 0⟩ : Tray Seeded)).ending =
        .stopped (.longNumeral 4301) := by
  intro p
  have length (zeros : Nat) : (Expression.Digits.ofNat zeros 1).chars.length = zeros + 1 := by
    change (List.replicate zeros '0' ++ ['1']).length = zeros + 1
    simp
  have long : Numeral.maxDigits < (Expression.Digits.ofNat 4300 1).chars.length := by
    rw [length]
    decide
  refine ⟨?_, ?_, answers_seeded, p.isBlank_text, ?_⟩
  · change (List.replicate 4300 '0' ++ ['1']) ++ ['d', '6'] = _
    rw [List.append_assoc]
    rfl
  · simp [p, Expression.Phrase.expression, Expression.Digits.value_ofNat]
  · rw [answer_of_long_count {} ⟨0, 0⟩ rfl long, length]
    rfl

section LongTotal

variable {σ : Type} [DiceSource σ] {settings : Settings} {text e : String}
  {expression : Expression} {tally : Tally} {tray : Tray σ}
  (line : lines text = [⟨none, [e]⟩])
  (read : Expression.read settings.maxDice e = .ok expression)
  (ending : ((expression.roll (Expression.canonical e) settings.maxRolledDice).run tray).ending =
    .finished tally)

include line read ending

theorem finishes_roll_of_one :
    (roll settings text).Finishes tray fun groups _ =>
      groups = [⟨none, [⟨Expression.canonical e, .ok tally⟩]⟩] := by
  have finished := settledEnding_of_finished read ending
  have results : ([e].mapM (rollExpression settings)).Finishes tray
      fun results _ => results = [⟨Expression.canonical e, .ok tally⟩] := by
    rw [List.mapM_cons, List.mapM_nil]
    apply (finishes_rollExpression finished).bind
    intro result between made
    exact .of_pure (by rw [made.1])
  have group : (rollLine settings ⟨none, [e]⟩).Finishes tray
      fun group _ => group = ⟨none, [⟨Expression.canonical e, .ok tally⟩]⟩ := by
    unfold rollLine
    apply results.bind
    intro made between same
    exact .of_pure (by rw [same])
  have groups : (rollLines settings (lines text)).Finishes tray
      fun groups _ => groups = [⟨none, [⟨Expression.canonical e, .ok tally⟩]⟩] := by
    rw [line, rollLines, List.mapM_cons, List.mapM_nil]
    apply group.bind
    intro made between same
    exact .of_pure (by rw [same])
  unfold roll
  apply groups.bind
  intro made between same
  apply (Roll.finishes_noting _ between).bind
  intro _ _ _
  exact .of_pure same

theorem answer_of_long_total (clock : Clock) (filled : isBlank text = false)
    (alone : tally.dieCount ≤ 1) (long : Numeral.bound ≤ tally.total.natAbs) :
    ((answer settings clock text).run tray).ending = .stopped .longInteger := by
  obtain ⟨groups, after, journal, run, same⟩ := finishes_roll_of_one line read ending
  have unwritable : tally.text = .error .longInteger := by
    rw [Tally.text, if_pos alone, Numeral.write_of_le long]
  have refused : Answer.ofGroups clock text groups = .error .longInteger := by
    simp only [same, Answer.ofGroups, Group.report, List.mapM_cons, Result.report, unwritable]
    rfl
  rw [answer, filled, if_neg Bool.false_ne_true, Roll.bind_eq, Roll.run_bind, run]
  simp only [Played.andThen, refused]
  rfl

end LongTotal

end Request

end DiceRoller
