import DiceRoller.Proofs.Roll.Course
import DiceRoller.Source.Script

/-!
# Rolls on a script

A roll that does not exhaust its script has drawn from the front of it and ends in the same way
on every script with this front (`run_of_agree`). A roll that exhausts its script has drawn all
of it and draws more as soon as there is more (`exhausted_iff`).
-/

namespace DiceRoller

variable {σ ε α : Type}

/-- The script before its first face is drawn. -/
def Script.tray (faces : List Int) : Tray Script := ⟨⟨faces⟩, 0⟩

theorem gives_script_iff {script rest : List Int} {throws : List Throw} :
    Gives (⟨script⟩ : Script) throws ⟨rest⟩ ↔ script = throws.map Throw.face ++ rest := by
  induction throws generalizing script with
  | nil =>
    constructor
    · rintro ⟨⟩
      rfl
    · rintro rfl
      exact .nil _
  | cons throw throws ih =>
    constructor
    · intro h
      cases h with
      | cons first later =>
        cases script with
        | nil => cases first
        | cons face script =>
          cases first
          exact congrArg (throw.face :: ·) (ih.mp later)
    · rintro rfl
      have later : Gives (⟨throws.map Throw.face ++ rest⟩ : Script) throws ⟨rest⟩ := ih.mpr rfl
      exact .cons rfl later

namespace Roll

theorem drawn_le_run [DiceSource σ] (r : Roll ε α) (tray : Tray σ) :
    tray.drawn ≤ (r.run tray).tray.drawn := by
  induction r generalizing tray with
  | done outcome => cases outcome <;> exact Nat.le_refl _
  | draw die next ih =>
    unfold run
    cases DiceSource.draw die tray.source with
    | none => exact Nat.le_refl _
    | some given => exact Nat.le_of_succ_le (ih given.1 ⟨given.2, tray.drawn + 1⟩)
  | note event next ih => exact ih tray

theorem drawn_of_exhausted {r : Roll ε α} {script : List Int} {drawn : Nat}
    (h : (r.run ⟨(⟨script⟩ : Script), drawn⟩).ending = .exhausted) :
    (r.run ⟨(⟨script⟩ : Script), drawn⟩).tray.drawn = drawn + script.length ∧
      ∀ face more, drawn + script.length <
        (r.run ⟨(⟨script ++ face :: more⟩ : Script), drawn⟩).tray.drawn := by
  induction r generalizing script drawn with
  | done outcome => cases outcome <;> cases h
  | draw die next ih =>
    cases script with
    | nil =>
      refine ⟨rfl, ?_⟩
      intro face more
      exact drawn_le_run (next face) (⟨⟨more⟩, drawn + 1⟩ : Tray Script)
    | cons first script =>
      obtain ⟨all, beyond⟩ := @ih first script (drawn + 1) h
      rw [Nat.add_assoc, Nat.add_comm 1] at all beyond
      exact ⟨all, beyond⟩
  | note event next ih => exact ih h

section Front

variable {r : Roll ε α} {script : List Int}

/-- The throws that a roll made of its script. -/
theorem exists_course_script {outcome : Except ε α}
    (h : (r.run (Script.tray script)).ending = .ofOutcome outcome) :
    ∃ throws, r.Course throws outcome ∧ throws.map Throw.face <+: script ∧
      (r.run (Script.tray script)).tray.drawn = throws.length := by
  obtain ⟨throws, course, given, drawn⟩ := exists_course h
  have front := gives_script_iff.mp given
  rw [Script.tray, Nat.zero_add] at drawn
  exact ⟨throws, course, ⟨_, front.symm⟩, drawn⟩

theorem take_drawn {throws : List Throw} (front : throws.map Throw.face <+: script) :
    script.take throws.length = throws.map Throw.face := by
  have whole := List.prefix_iff_eq_take.mp front
  rw [List.length_map] at whole
  exact whole.symm

theorem run_of_agree (h : (r.run (Script.tray script)).ending ≠ .exhausted) :
    (r.run (Script.tray script)).tray.drawn ≤ script.length ∧
    ∀ other : List Int, other.take (r.run (Script.tray script)).tray.drawn =
        script.take (r.run (Script.tray script)).tray.drawn →
      (r.run (Script.tray other)).ending = (r.run (Script.tray script)).ending ∧
      (r.run (Script.tray other)).tray.drawn = (r.run (Script.tray script)).tray.drawn := by
  obtain ⟨outcome, ending⟩ := Ending.exists_outcome h
  obtain ⟨throws, course, front, drawn⟩ := exists_course_script ending
  rw [drawn, ending, take_drawn front]
  constructor
  · simpa using front.length_le
  · intro other agree
    have split := List.take_append_drop throws.length other
    rw [agree] at split
    have given : Gives (Script.tray other).source throws ⟨other.drop throws.length⟩ :=
      gives_script_iff.mpr split.symm
    obtain ⟨journal, run⟩ := course.run_eq given
    rw [run]
    exact ⟨rfl, Nat.zero_add _⟩

theorem exhausted_iff (face : Int) (more : List Int) :
    (r.run (Script.tray script)).ending = .exhausted ↔
      script.length < (r.run (Script.tray (script ++ face :: more))).tray.drawn := by
  constructor
  · intro h
    have beyond := (drawn_of_exhausted h).2 face more
    rwa [Nat.zero_add] at beyond
  · intro beyond
    apply Classical.byContradiction
    intro h
    obtain ⟨few, again⟩ := run_of_agree h
    have same := (again (script ++ face :: more) (List.take_append_of_le_length few)).2
    omega

end Front

end Roll

end DiceRoller
