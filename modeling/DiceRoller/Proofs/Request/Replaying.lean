import DiceRoller.Proofs.Request.Composition
import DiceRoller.Proofs.Request.Shares

/-!
# Replayed expressions

A result keeps the canonical text of its expression, and that is all that rolling knows of the
expression. So rolling the text that a result keeps is rolling the expression again, whatever
letters, marks and outer blanks it was given with (`rollExpression_replayed`).
-/

namespace DiceRoller.Request

theorem canonical_blanks {front back : String} (text : String)
    (hfront : ∀ c ∈ front.toList, Text.isBlank c = true)
    (hback : ∀ c ∈ back.toList, Text.isBlank c = true) :
    Expression.canonical (front ++ text ++ back) = Expression.canonical text := by
  simp only [Expression.canonical, Expression.canonicalChars, String.toList_append,
    Text.trim_append_blanks _ hback, Text.trim_blanks_append _ hfront]

variable {settings : Settings}

theorem rollExpression_of_canonical_eq {a b : String}
    (h : Expression.canonical a = Expression.canonical b) :
    rollExpression settings a = rollExpression settings b := by
  rw [rollExpression, rollExpression, h]

theorem text_of_finished {σ : Type} [DiceSource σ] {e : String} {tray : Tray σ} {result : Result}
    (h : ((rollExpression settings e).run tray).ending = .finished result) :
    result.text = Expression.canonical e := by
  obtain ⟨throws, course, -⟩ := Roll.exists_course_of_finished h
  obtain ⟨first, later, outcome, -, -, noted⟩ := Roll.Course.bind_ok course
  rw [(course_noteFault noted).2]

/-- The canonical text is read like the text that it is made from, and both are the same roll, with
blanks around them or without: it asks for the same dice and makes the same of their faces. So
on every source, rolling what a result keeps gives this result again, for a fault too. -/
theorem rollExpression_replayed (settings : Settings) (text : String) {front back : String}
    (hfront : ∀ c ∈ front.toList, Text.isBlank c = true)
    (hback : ∀ c ∈ back.toList, Text.isBlank c = true) :
    Expression.canonical (Expression.canonical text) = Expression.canonical text ∧
    (∀ most, Expression.read most (Expression.canonical text) = Expression.read most text) ∧
    rollExpression settings (front ++ text ++ back) = rollExpression settings text ∧
    ∀ {σ : Type} [DiceSource σ] (tray : Tray σ) (result : Result),
      ((rollExpression settings text).run tray).ending = .finished result →
        result.text = Expression.canonical text ∧
        rollExpression settings result.text = rollExpression settings text ∧
        (rollExpression settings result.text).run tray =
          (rollExpression settings (front ++ text ++ back)).run tray := by
  have outer : rollExpression settings (front ++ text ++ back) = rollExpression settings text :=
    rollExpression_of_canonical_eq (canonical_blanks text hfront hback)
  have replayed : rollExpression settings (Expression.canonical text) =
      rollExpression settings text :=
    rollExpression_of_canonical_eq (Expression.canonical_canonical text)
  refine ⟨Expression.canonical_canonical text, fun most => Expression.read_canonical most text,
    outer, ?_⟩
  intro σ _ tray result ending
  have kept := text_of_finished ending
  rw [kept, outer, replayed]
  exact ⟨rfl, rfl, rfl⟩

theorem rollExpression_replayed_refused :
    let text := "2D\u0130\u03A3"
    let front := "\u3000\n"
    let back := "\u2009"
    (∀ c ∈ front.toList, Text.isBlank c = true) ∧ (∀ c ∈ back.toList, Text.isBlank c = true) ∧
      Expression.canonical text = "2di\u0307\u03C2" ∧
      rollExpression {} (front ++ text ++ back) = rollExpression {} text ∧
      ∀ tray : Tray Seeded, ∃ result,
        ((rollExpression {} text).run tray).ending = .finished result ∧
          rollExpression {} result.text = rollExpression {} text := by
  intro text front back
  have hfront : ∀ c ∈ front.toList, Text.isBlank c = true := List.all_eq_true.mp (by decide)
  have hback : ∀ c ∈ back.toList, Text.isBlank c = true := List.all_eq_true.mp (by decide)
  let fault := Expression.Flaw.noDice.fault "2di\u0307\u03C2"
  have refused : Expression.read ({} : Settings).maxDice text = .error (.fault fault) := by
    decide +kernel
  have silent : (rollExpression {} text).silent =
      pure (.failed (Expression.canonical text) fault) := silent_rollExpression refused
  obtain ⟨-, -, outer, replayed⟩ := rollExpression_replayed {} text hfront hback
  refine ⟨hfront, hback, by decide +kernel, outer, ?_⟩
  intro tray
  have ending := Roll.ending_of_silent_eq_pure silent tray
  exact ⟨_, ending, (replayed tray _ ending).2.1⟩

end DiceRoller.Request
