import DiceRoller.Pool.Tally
import DiceRoller.Proofs.Pool.Chains
import DiceRoller.Proofs.Roll.Ensuring

/-!
# Faces drawn for an expression

Whatever an expression asks for, its tally is made of faces drawn for its own die, and of no
more of them than its count or its cap. The one fault that can come up on the way is the
overflow of a pool that expands (`ensures_roll`).
-/

namespace DiceRoller

variable {ε : Type} {allowed : Die → Int → Prop} {die : Die} {bad : ε → Prop}

/-- So many faces at most, and all of them allowed for the die. -/
structure Drawn (allowed : Die → Int → Prop) (die : Die) (most : Nat) (faces : List Int) :
    Prop where
  length_le : faces.length ≤ most
  allowed : ∀ face ∈ faces, allowed die face

theorem Drawn.nil : Drawn allowed die 0 [] := ⟨Nat.le_refl 0, by simp⟩

theorem Drawn.mono {most more : Nat} {faces : List Int} (h : Drawn allowed die most faces)
    (le : most ≤ more) : Drawn allowed die more faces :=
  ⟨h.length_le.trans le, h.allowed⟩

theorem Drawn.cons {most : Nat} {face : Int} {faces : List Int} (hface : allowed die face)
    (h : Drawn allowed die most faces) : Drawn allowed die (most + 1) (face :: faces) := by
  constructor
  · rw [List.length_cons]
    exact Nat.succ_le_succ h.length_le
  · intro x hx
    rcases List.mem_cons.mp hx with rfl | hx
    · exact hface
    · exact h.allowed x hx

theorem Drawn.reverse {most : Nat} {faces : List Int} (h : Drawn allowed die most faces) :
    Drawn allowed die most faces.reverse :=
  ⟨List.length_reverse.trans_le h.length_le, fun x hx => h.allowed x (List.mem_reverse.mp hx)⟩

variable (sound : die.tooFewSides = false)

include sound

theorem ensures_dice (count : Nat) {most : Nat} {drawn : List Int}
    (h : Drawn allowed die most drawn) :
    (Roll.dice die count drawn).Ensures allowed (Drawn allowed die (most + count)) bad := by
  induction count generalizing most drawn with
  | zero => exact .value h.reverse
  | succ count ih =>
    refine .draw sound ?_
    intro face hface
    have later := ih (h.cons hface)
    rwa [Nat.add_assoc, Nat.add_comm 1 count] at later

theorem ensures_reroll (threshold : Int) (budget : Nat) (pending : Int) {most : Nat}
    {drawn : List Int} (h : Drawn allowed die most drawn) :
    (reroll die threshold budget pending drawn).Ensures allowed
      (fun rolled => ∀ faces ∈ rolled, Drawn allowed die (most + budget) faces) bad := by
  have closed : ∀ faces ∈ some drawn.reverse, Drawn allowed die most faces := by
    intro faces hfaces
    exact Option.mem_some.mp hfaces ▸ h.reverse
  induction budget generalizing most pending drawn with
  | zero =>
    unfold reroll
    by_cases done : pending = 0
    · rw [if_pos done]
      exact .value closed
    · rw [if_neg done]
      exact .value (by simp)
  | succ budget ih =>
    unfold reroll
    by_cases done : pending = 0
    · rw [if_pos done]
      refine .value ?_
      intro faces hfaces
      exact (closed faces hfaces).mono (Nat.le_add_right _ _)
    · rw [if_neg done]
      refine .draw sound ?_
      intro face hface
      have more := h.cons hface
      have later := ih (if isHit threshold face then pending else pending - 1) more
        fun faces hfaces => Option.mem_some.mp hfaces ▸ more.reverse
      rwa [Nat.add_assoc, Nat.add_comm 1 budget] at later

theorem ensures_explode (threshold : Int) (budget count : Nat) :
    (explode die threshold budget count [] []).Ensures allowed
      (fun rolled => ∀ chains ∈ rolled, ∃ faces, Drawn allowed die budget faces ∧
        chains = chainsFrom threshold [] faces) bad := by
  have order : ([] : List Int).reverse = ([] : List (List Int)).reverse.flatten ++ [].reverse := rfl
  rw [explode_eq_reroll die threshold budget count order (by simp) (by simp) fun _ => rfl]
  apply (ensures_reroll sound threshold budget count Drawn.nil).bind
  intro rolled hrolled
  refine .value ?_
  intro chains hchains
  obtain ⟨faces, hfaces, rfl⟩ := Option.map_eq_some_iff.mp hchains
  have drawn := hrolled faces hfaces
  rw [Nat.zero_add] at drawn
  exact ⟨faces, drawn, rfl⟩

namespace Expression

/-- What an expression makes of the faces drawn for it. -/
def tallyOf (e : Expression) (faces : List Int) : Tally :=
  match e.modifier with
  | some (.count .exploding threshold) => .ofChains e.bonus (chainsFrom threshold [] faces)
  | _ => e.score faces

omit sound in
theorem ensures_expanding {α : Type} (e : Expression) (text : String) (cap : Int)
    (tally : α → Tally) {pool : Roll Failure (Option α)} {good : α → Prop}
    (h : pool.Ensures allowed (fun rolled => ∀ value ∈ rolled, good value)
      (· = Failure.overflow text cap)) :
    (e.expanding text cap tally pool).Ensures allowed
      (fun made => ∃ value, good value ∧ made = tally value) (· = Failure.overflow text cap) := by
  unfold expanding
  split
  · exact .reason rfl
  · apply h.bind
    intro rolled hrolled
    cases rolled with
    | none => exact .reason rfl
    | some value => exact .value ⟨value, hrolled value rfl, rfl⟩

omit sound in
/-- The tally of an expression is made of faces drawn for its die, or its pool overflows. -/
theorem ensures_roll {e : Expression} (sound : e.die.tooFewSides = false) (text : String)
    (cap : Int) :
    (e.roll text cap).Ensures allowed
      (fun made => ∃ faces, Drawn allowed e.die (max e.count.toNat cap.toNat) faces ∧
        made = e.tallyOf faces)
      (· = Failure.overflow text cap) := by
  have once : (Roll.dice e.die e.count.toNat [] >>= fun faces =>
      pure (e.score faces) : Roll Failure Tally).Ensures allowed
        (fun made => ∃ faces, Drawn allowed e.die (max e.count.toNat cap.toNat) faces ∧
          made = e.score faces) (· = Failure.overflow text cap) := by
    apply (ensures_dice sound e.count.toNat Drawn.nil).bind
    intro faces hfaces
    rw [Nat.zero_add] at hfaces
    exact .value ⟨faces, hfaces.mono (Nat.le_max_left _ _), rfl⟩
  match h : e.modifier with
  | some (.count .exploding threshold) =>
    simp only [roll, tallyOf, h]
    apply (ensures_expanding e text cap (.ofChains e.bonus)
      (ensures_explode sound threshold cap.toNat e.count.toNat)).mono
    · rintro made ⟨chains, ⟨faces, drawn, rfl⟩, rfl⟩
      exact ⟨faces, drawn.mono (Nat.le_max_right _ _), rfl⟩
    · exact fun _ => id
  | some (.count .reroll threshold) =>
    simp only [roll, tallyOf, h]
    apply (ensures_expanding e text cap e.score
      (ensures_reroll sound threshold cap.toNat e.count Drawn.nil)).mono
    · rintro made ⟨faces, drawn, rfl⟩
      rw [Nat.zero_add] at drawn
      exact ⟨faces, drawn.mono (Nat.le_max_right _ _), rfl⟩
    · exact fun _ => id
  | none | some (.select _ _) | some (.count .versus _) =>
    simp only [roll, tallyOf, h]
    exact once

end Expression

end DiceRoller
