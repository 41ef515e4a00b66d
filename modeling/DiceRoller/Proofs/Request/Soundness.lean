import DiceRoller.Proofs.Pool.Soundness
import DiceRoller.Proofs.Request.Shares

/-!
# Sound results

On a source that shows for each die only faces that it has, every expression that comes to a
tally has been read as one within the bounds, and the tally keeps to it (`rollExpression_sound`).
-/

namespace DiceRoller

variable {σ : Type} [DiceSource σ]

/-- All that the source will give are faces of the dice asked for. A die with too few sides may
show anything. -/
def Fair (source : σ) : Prop :=
  ∀ throws after, Gives source throws after →
    ∀ throw ∈ throws, throw.die.tooFewSides = false → throw.die.Shows throw.face

theorem Answers.fair (answers : Answers σ Die.Shows) (source : σ) : Fair source := by
  intro throws after given
  induction given with
  | nil => exact fun throw none => absurd none List.not_mem_nil
  | @cons before between _ throw throws first later ih =>
    intro thrown hthrown sound
    rcases List.mem_cons.mp hthrown with rfl | hthrown
    · obtain ⟨face, next, drawn, shows⟩ := answers thrown.die sound before
      cases first.symm.trans drawn
      exact shows
    · exact ih thrown hthrown sound

namespace Request

variable {settings : Settings} {e : String} {result : Result} {tally : Tally}

theorem sound_of_share {throws : List Throw} (share : Share settings e throws result)
    (shows : ∀ throw ∈ throws, throw.die.tooFewSides = false → throw.die.Shows throw.face)
    (ok : result.outcome = .ok tally) :
    result.text = Expression.canonical e ∧ ∃ expression,
      Expression.read settings.maxDice e = .ok expression ∧
        expression.Sound settings.maxRolledDice tally := by
  cases share with
  | refused => cases ok
  | overflow => cases ok
  | @rolled expression faces _ read draws =>
    cases ok
    have within := (Expression.yields_read settings.maxDice e).of_eq_ok read
    have sides := Expression.tooFewSides_eq_false_iff.mpr within.two_le_sides
    have shown : ∀ face ∈ faces, expression.die.Shows face := fun face hface =>
      shows ⟨expression.die, face⟩ (List.mem_map_of_mem hface) sides
    exact ⟨rfl, expression, read, Expression.sound_of_draws within shown draws⟩

/-- On a fair source, also on one that may be exhausted, every tally that an expression comes to
is sound. -/
theorem rollExpression_sound {tray : Tray σ} (fair : Fair tray.source)
    (h : ((rollExpression settings e).run tray).ending = .finished result)
    (ok : result.outcome = .ok tally) :
    result.text = Expression.canonical e ∧ ∃ expression,
      Expression.read settings.maxDice e = .ok expression ∧
        expression.Sound settings.maxRolledDice tally := by
  obtain ⟨throws, course, given⟩ := Roll.exists_course_of_finished h
  exact sound_of_share (share_of_course course) (fair throws _ given) ok

theorem rollExpression_sound_one_of_two :
    let settings : Settings := {}
    let e : Expression := ⟨2, .numbered 6, some (.select .keepHighest 1), some 1⟩
    let tray : Tray Seeded := ⟨.ofSeed 3, 0⟩
    let tally : Tally := ⟨[6], [2], 7⟩
    Fair tray.source ∧
      ((rollExpression settings " 2D6KH1+1").run tray).ending =
        .finished ⟨"2d6kh1+1", .ok tally⟩ ∧
      e.Sound settings.maxRolledDice tally := by
  intro settings e tray tally
  have fair : Fair tray.source := answers_seeded.fair _
  have canonical : Expression.canonical " 2D6KH1+1" = "2d6kh1+1" := by decide +kernel
  have read : Expression.read settings.maxDice " 2D6KH1+1" = .ok e := by decide +kernel
  have goes : Expression.readAndRoll settings (Expression.canonical " 2D6KH1+1") =
      e.roll "2d6kh1+1" settings.maxRolledDice :=
    (readAndRoll_of_ok read).trans (congrArg (e.roll · settings.maxRolledDice) canonical)
  have first : DiceSource.draw e.die tray.source = some (6, tray.source.next) := by
    decide +kernel
  have second : DiceSource.draw e.die tray.source.next = some (2, tray.source.next.next) := by
    decide +kernel
  have given : Gives tray.source (throwsOf e.die [6, 2]) tray.source.next.next :=
    .cons first (.cons second (.nil _))
  have sorted : ascending [6, 2] = [2, 6] := ascending_eq_of_ordered (by decide) (by decide)
  have score : e.score [6, 2] = tally := by
    rw [Expression.score, sorted]
    rfl
  have rolled :=
    (Expression.run_of_plain (e := e) rfl "2d6kh1+1" settings.maxRolledDice rfl given).1
  rw [score] at rolled
  have settled : Roll.settledEnding ((Expression.readAndRoll settings (Expression.canonical
      " 2D6KH1+1")).run tray).ending = .finished (.ok tally) := by
    rw [goes, rolled]
    rfl
  obtain ⟨result, after, journal, run, rfl, -⟩ := finishes_rollExpression settled
  have ended : ((rollExpression settings " 2D6KH1+1").run tray).ending =
      .finished ⟨"2d6kh1+1", .ok tally⟩ := by
    rw [run, canonical]
  obtain ⟨-, expression, same, sound⟩ := rollExpression_sound fair ended rfl
  obtain rfl := Except.ok.inj (read.symm.trans same)
  exact ⟨fair, ended, sound⟩

end Request

end DiceRoller
