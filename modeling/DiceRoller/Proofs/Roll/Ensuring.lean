import DiceRoller.Expression.Bounds
import DiceRoller.Proofs.Yielding
import DiceRoller.Source.Seeded
import Mathlib.Data.List.Forall2

/-!
# What a roll ensures

A roll ensures something of its values and of its reasons to stop if that holds however its
dice fall, and if no die in it has too few sides to be rolled. On a source that answers for
all other dice such a roll comes to an end with one of these values or reasons
(`Ensures.run`).
-/

namespace DiceRoller

def Die.Shows : Die → Int → Prop
  | .numbered sides, face => 1 ≤ face ∧ face ≤ sides
  | .fate, face => -1 ≤ face ∧ face ≤ 1

/-- The source gives an allowed face for every die that has two sides or more. -/
def Answers (σ : Type) [DiceSource σ] (allowed : Die → Int → Prop) : Prop :=
  ∀ die, die.tooFewSides = false → ∀ source : σ, ∃ face after,
    DiceSource.draw die source = some (face, after) ∧ allowed die face

theorem Answers.mono {σ : Type} [DiceSource σ] {allowed allowed' : Die → Int → Prop}
    (h : Answers σ allowed) (le : ∀ die face, allowed die face → allowed' die face) :
    Answers σ allowed' := by
  intro die sound source
  obtain ⟨face, after, drawn, hface⟩ := h die sound source
  exact ⟨face, after, drawn, le die face hface⟩

theorem answers_seeded : Answers Seeded Die.Shows := by
  intro die sound source
  refine ⟨source.next.face die, source.next, rfl, ?_⟩
  cases die with
  | numbered sides =>
    have two : ¬ sides < 2 := of_decide_eq_false sound
    have low := Int.emod_nonneg source.next.number (show sides ≠ 0 by omega)
    have high := Int.emod_lt_of_pos source.next.number (show 0 < sides by omega)
    simp only [Die.Shows, Seeded.face]
    omega
  | fate =>
    simp only [Die.Shows, Seeded.face]
    omega

namespace Roll

variable {ε α β : Type} {allowed : Die → Int → Prop}

/-- However the dice fall, the value is `good` or the reason to stop is `bad`. -/
inductive Ensures (allowed : Die → Int → Prop) (good : α → Prop) (bad : ε → Prop) : Roll ε α → Prop
  | value {value : α} (h : good value) : Ensures allowed good bad (.done (.ok value))
  | reason {reason : ε} (h : bad reason) : Ensures allowed good bad (.done (.error reason))
  | draw {die : Die} {next : Int → Roll ε α} (sound : die.tooFewSides = false)
      (h : ∀ face, allowed die face → Ensures allowed good bad (next face)) :
      Ensures allowed good bad (.draw die next)
  | note {event : Event} {next : Roll ε α} (h : Ensures allowed good bad next) :
      Ensures allowed good bad (.note event next)

namespace Ensures

variable {good good' : α → Prop} {bad bad' : ε → Prop} {r : Roll ε α}

theorem mono (h : r.Ensures allowed good bad) (hgood : ∀ value, good value → good' value)
    (hbad : ∀ reason, bad reason → bad' reason) : r.Ensures allowed good' bad' := by
  induction h with
  | value h => exact .value (hgood _ h)
  | reason h => exact .reason (hbad _ h)
  | draw sound _ ih => exact .draw sound ih
  | note _ ih => exact .note ih

theorem bind {goal : β → Prop} {f : α → Roll ε β} (h : r.Ensures allowed good bad)
    (later : ∀ value, good value → (f value).Ensures allowed goal bad) :
    (r >>= f).Ensures allowed goal bad := by
  rw [bind_eq]
  induction h with
  | value h => exact later _ h
  | reason h => exact .reason h
  | draw sound _ ih => exact .draw sound ih
  | note _ ih => exact .note ih

/-- What holds of every element and its value holds of the two lists. -/
theorem mapM {f : α → Roll ε β} {rel : α → β → Prop} {l : List α}
    (h : ∀ a ∈ l, (f a).Ensures allowed (rel a) bad) :
    (l.mapM f).Ensures allowed (List.Forall₂ rel l) bad := by
  induction l with
  | nil => exact .value .nil
  | cons a l ih =>
    rw [List.mapM_cons]
    apply (h a List.mem_cons_self).bind
    intro b hb
    apply (ih fun x hx => h x (List.mem_cons_of_mem a hx)).bind
    intro bs hbs
    exact .value (.cons hb hbs)

/-- The end of a roll on a source that answers. -/
theorem run {σ : Type} [DiceSource σ] (answers : Answers σ allowed)
    (h : r.Ensures allowed good bad) (tray : Tray σ) :
    (∃ value, good value ∧ (r.run tray).ending = .finished value) ∨
      ∃ reason, bad reason ∧ (r.run tray).ending = .stopped reason := by
  induction h generalizing tray with
  | value h => exact Or.inl ⟨_, h, rfl⟩
  | reason h => exact Or.inr ⟨_, h, rfl⟩
  | @draw die next sound _ ih =>
    obtain ⟨face, after, drawn, hface⟩ := answers die sound tray.source
    simp only [Roll.run, drawn]
    exact ih face hface _
  | note _ ih => exact ih tray

end Ensures

/-- A settled roll has the fault that stopped the roll as its outcome. -/
theorem ensures_settle {good : α → Prop} {fault : Fault → Prop} {bad : Abort → Prop}
    {r : Roll Failure α} (h : r.Ensures allowed good (Failure.Meets fault bad)) :
    r.settle.Ensures allowed (Yields good fault) bad := by
  induction h with
  | value h => exact .value (.ok h)
  | reason h =>
    cases h with
    | fault h => exact .value (.error h)
    | abort h => exact .reason h
  | draw sound _ ih => exact .draw sound ih
  | note _ ih => exact .note ih

theorem ensures_noting {bad : ε → Prop} (event : Event) :
    (noting event).Ensures allowed (fun _ => True) bad :=
  .note (.value trivial)

theorem ensures_ofExcept {good : α → Prop} {bad : ε → Prop} {outcome : Except ε α}
    (h : Yields good bad outcome) : (ofExcept outcome).Ensures allowed good bad := by
  cases h with
  | ok h => exact .value h
  | error h => exact .reason h

end Roll

end DiceRoller
