import DiceRoller.Proofs.Pool.Writable
import DiceRoller.Proofs.Report.Merging
import DiceRoller.Proofs.Text.Unbroken
import DiceRoller.Proofs.Yielding

/-!
# How tallies are shown

The text of a tally is put together from the decimal texts of its numbers. There is no such text
only when one of the numbers is too long to be written (`Tally.yields_shown`).
-/

namespace DiceRoller

namespace ShownDie

def shown (die : ShownDie) : String :=
  if die.dropped then "(" ++ toString die.face ++ ")" else toString die.face

theorem yields_shown (die : ShownDie) :
    Yields (die.shown = ·) (fun reason => reason = .longInteger ∧ ¬ die.face.natAbs < Numeral.bound)
      die.text := by
  apply (Numeral.yields_write die.face).bind
  rintro face rfl
  exact .ok rfl

theorem unbroken_shown (die : ShownDie) : Unbroken die.shown := by
  unfold shown
  have face := unbroken_toString die.face
  split
  · exact unbroken_append.mpr ⟨unbroken_append.mpr ⟨by decide, face⟩, by decide⟩
  · exact face

end ShownDie

namespace Tally

/-- The text of the tally, with numbers of any length. -/
def shown (tally : Tally) : String :=
  if tally.dieCount ≤ 1 then toString tally.total
  else toString tally.total ++ " \x7b" ++ " ".intercalate (tally.dice.map ShownDie.shown) ++ "\x7d"

theorem unbroken_shown (tally : Tally) : Unbroken tally.shown := by
  have dice : Unbroken (" ".intercalate (tally.dice.map ShownDie.shown)) := by
    apply Unbroken.intercalate (by decide)
    intro text htext
    obtain ⟨die, -, rfl⟩ := List.mem_map.mp htext
    exact die.unbroken_shown
  have total := unbroken_toString tally.total
  unfold shown
  split
  · exact total
  · simp only [unbroken_append]
    exact ⟨⟨⟨total, by decide⟩, dice⟩, by decide⟩

theorem face_mem_of_mem_dice {tally : Tally} {die : ShownDie} (h : die ∈ tally.dice) :
    die.face ∈ tally.rolls ∨ die.face ∈ tally.dropped := by
  rw [← List.mem_append, ← tally.map_face_rows]
  exact List.mem_map_of_mem (tally.dice_perm.mem_iff.mp h)

variable (tally : Tally)

theorem yields_shown : Yields (tally.shown = ·)
    (fun reason => reason = .longInteger ∧ ¬ tally.Writable) tally.text := by
  have total : Yields (· = toString tally.total)
      (fun reason => reason = .longInteger ∧ ¬ tally.Writable) (Numeral.write tally.total) := by
    apply (Numeral.yields_write tally.total).mono fun _ => id
    intro reason long
    exact ⟨long.1, fun writable => long.2 writable.total⟩
  have dice : Yields (List.Forall₂ (fun die text => ShownDie.shown die = text) tally.dice)
      (fun reason => reason = .longInteger ∧ ¬ tally.Writable) (tally.dice.mapM ShownDie.text) := by
    apply Yields.mapM
    intro die hdie
    have face := face_mem_of_mem_dice hdie
    apply die.yields_shown.mono fun _ => id
    intro reason long
    exact ⟨long.1, fun writable => long.2 (face.elim (writable.rolls _) (writable.dropped _))⟩
  unfold shown text
  split
  · exact total.mono (fun _ => Eq.symm) fun _ => id
  · apply dice.bind
    intro texts htexts
    apply total.bind
    rintro total rfl
    rw [← List.forall₂_map_left_iff, List.forall₂_eq_eq_eq] at htexts
    exact .ok (by rw [htexts])

/-- A tally is shown in one line unless one of its numbers cannot be written. -/
theorem yields_text :
    Yields Unbroken (fun reason => reason = .longInteger ∧ ¬ tally.Writable) tally.text := by
  apply tally.yields_shown.mono ?_ fun _ => id
  rintro text rfl
  exact tally.unbroken_shown

variable {tally}

theorem text_of_writable (writable : tally.Writable) : tally.text = .ok tally.shown := by
  cases made : tally.text with
  | ok text => rw [tally.yields_shown.of_eq_ok made]
  | error reason => exact absurd writable (tally.yields_shown.of_eq_error made).2

end Tally

end DiceRoller
