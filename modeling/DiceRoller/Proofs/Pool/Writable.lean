import DiceRoller.Proofs.Expression.Numbers
import DiceRoller.Proofs.Pool.Drawing

/-!
# Tallies that can be written

A total can have more digits than any number of its expression. If no number and no pool has
more than half of the digits that can be written, then products of two of them can be written,
and with them every face and every total (`writable_tallyOf`).
-/

namespace DiceRoller

open Numeral (root bound)

structure Tally.Writable (tally : Tally) : Prop where
  rolls : ∀ face ∈ tally.rolls, face.natAbs < bound
  dropped : ∀ face ∈ tally.dropped, face.natAbs < bound
  total : tally.total.natAbs < bound

section Sums

variable {faces : List Int} {most : Nat}

theorem natAbs_sumFaces_le (h : ∀ face ∈ faces, face.natAbs ≤ most) :
    (sumFaces faces).natAbs ≤ faces.length * most := by
  induction faces with
  | nil => exact Nat.zero_le _
  | cons face faces ih =>
    have later := ih fun x hx => h x (List.mem_cons_of_mem face hx)
    have first := h face List.mem_cons_self
    have sum := Int.natAbs_add_le face (sumFaces faces)
    rw [List.length_cons, Nat.succ_mul]
    change (face + sumFaces faces).natAbs ≤ _
    omega

theorem natAbs_sumFaces_le_mul (few : faces.length ≤ most)
    (h : ∀ face ∈ faces, face.natAbs ≤ most) : (sumFaces faces).natAbs ≤ most * most :=
  (natAbs_sumFaces_le h).trans (Nat.mul_le_mul_right most few)

end Sums

theorem infix_of_mem_chainsFrom {threshold : Int} {chain faces c : List Int}
    (h : c ∈ chainsFrom threshold chain faces) : c <:+: chain ++ faces := by
  induction faces generalizing chain with
  | nil => simp [chainsFrom] at h
  | cons face faces ih =>
    unfold chainsFrom at h
    rw [List.append_cons]
    by_cases hit : isHit threshold face = true
    · rw [if_pos hit] at h
      exact ih h
    · rw [if_neg hit] at h
      rcases List.mem_cons.mp h with rfl | h
      · exact (List.prefix_append _ faces).isInfix
      · exact (ih h).trans (List.suffix_append _ faces).isInfix

/-- A pool whose size and faces leave room for a product of two of them. -/
structure ModestPool (faces : List Int) : Prop where
  length_le : faces.length ≤ root - 1
  natAbs_le : ∀ face ∈ faces, face.natAbs ≤ root - 1

namespace ModestPool

variable {faces part : List Int}

theorem of_subset (h : ModestPool faces) (le : part.length ≤ faces.length) (sub : part ⊆ faces) :
    ModestPool part :=
  ⟨le.trans h.length_le, fun face hface => h.natAbs_le face (sub hface)⟩

theorem natAbs_lt (h : ModestPool faces) : ∀ face ∈ faces, face.natAbs < bound := by
  intro face hface
  have small := h.natAbs_le face hface
  have two := Numeral.two_le_root
  have root_le := Numeral.root_le_bound
  omega

theorem natAbs_sumFaces_le (h : ModestPool faces) :
    (sumFaces faces).natAbs ≤ (root - 1) * (root - 1) :=
  natAbs_sumFaces_le_mul h.length_le h.natAbs_le

end ModestPool

/-- A number of successes is a number of dice. -/
theorem natAbs_count_le {count : Nat} (h : count ≤ root - 1) :
    (count : Int).natAbs ≤ (root - 1) * (root - 1) := by
  have two := Numeral.two_le_root
  have square := Nat.le_mul_of_pos_left (root - 1) (show 0 < root - 1 by omega)
  rw [Int.natAbs_natCast]
  exact h.trans square

namespace Tally

variable {faces : List Int} {bonus : Int} (modest : ModestPool faces) (hbonus : bonus.natAbs < root)

include modest hbonus

theorem writable_ofSelected {selected : Selected}
    (h : (selected.kept ++ selected.dropped).Perm faces) : (ofSelected bonus selected).Writable := by
  have size := h.length_eq
  rw [List.length_append] at size
  have kept : ModestPool selected.kept :=
    modest.of_subset (by omega) fun x hx => h.subset (List.mem_append_left _ hx)
  have dropped : ModestPool selected.dropped :=
    modest.of_subset (by omega) fun x hx => h.subset (List.mem_append_right _ hx)
  exact ⟨kept.natAbs_lt, dropped.natAbs_lt, Numeral.add_lt_bound kept.natAbs_sumFaces_le hbonus⟩

theorem writable_ofHits (threshold : Int) : (ofHits threshold bonus faces).Writable where
  rolls face hface := modest.natAbs_lt face ((ascending_perm faces).mem_iff.mp hface)
  dropped _ hface := absurd hface List.not_mem_nil
  total := by
    have few : hits threshold faces ≤ faces.length := List.countP_le_length
    exact Numeral.add_lt_bound (natAbs_count_le (few.trans modest.length_le)) hbonus

theorem writable_ofChains (threshold : Int) :
    (ofChains bonus (chainsFrom threshold [] faces)).Writable where
  rolls sum hsum := by
    obtain ⟨chain, hchain, rfl⟩ := List.mem_map.mp ((ascending_perm _).mem_iff.mp hsum)
    have inside := infix_of_mem_chainsFrom hchain
    rw [List.nil_append] at inside
    have whole := (modest.of_subset inside.length_le inside.subset).natAbs_sumFaces_le
    have alone := Numeral.add_lt_bound whole (show (0 : Int).natAbs < root from
      Nat.zero_lt_of_lt Numeral.two_le_root)
    rwa [Int.add_zero] at alone
  dropped _ hface := absurd hface List.not_mem_nil
  total := by
    have few : (chainsFrom threshold [] faces).countP isExtended ≤ faces.length :=
      List.countP_le_length.trans ((length_chainsFrom [] faces).trans_le List.countP_le_length)
    exact Numeral.add_lt_bound (natAbs_count_le (few.trans modest.length_le)) hbonus

end Tally

namespace Expression

/-- The numbers of an expression leave room for a product of two of them. -/
structure Modest (e : Expression) : Prop where
  count : e.count.natAbs < root
  face : ∀ face, e.die.Shows face → face.natAbs < root
  bonus : e.bonus.natAbs < root

theorem writable_tallyOf {e : Expression} (modest : e.Modest) {faces : List Int} {most : Nat}
    (hmost : most < root) (drawn : Drawn Die.Shows e.die most faces) :
    (e.tallyOf faces).Writable := by
  have pool : ModestPool faces := by
    constructor
    · have few := drawn.length_le
      omega
    · intro face hface
      have less := modest.face face (drawn.allowed face hface)
      omega
  have whole : (ascending faces ++ []).Perm faces := by
    simpa using ascending_perm faces
  unfold tallyOf
  match h : e.modifier with
  | some (.count .exploding threshold) => exact Tally.writable_ofChains pool modest.bonus threshold
  | some (.count .versus threshold) | some (.count .reroll threshold) =>
    simp only [score, h]
    exact Tally.writable_ofHits pool modest.bonus threshold
  | some (.select rule amount) =>
    simp only [score, h]
    exact Tally.writable_ofSelected pool modest.bonus
      ((rule.apply_perm amount (ascending faces)).trans (ascending_perm faces))
  | none =>
    simp only [score, h]
    exact Tally.writable_ofSelected pool modest.bonus whole

namespace Phrase

theorem value_lt_root {p : Phrase} (h : Numeral.RunsWithin (Numeral.maxDigits / 2) p.chars)
    {digits : Digits} (hd : digits ∈ p.numbers) : digits.value < root := by
  have short := h digits.chars (infix_of_mem_numbers hd) digits.isDigit
  have less := Numeral.value_lt_pow_of_le digits.isDigit short
  unfold root
  exact less

theorem modest_expression {p : Phrase}
    (h : Numeral.RunsWithin (Numeral.maxDigits / 2) p.chars) : p.expression.Modest := by
  have two := Numeral.two_le_root
  refine ⟨?_, ?_, ?_⟩
  · unfold expression
    cases hp : p.count with
    | none => exact two
    | some digits => exact value_lt_root h (mem_numbers_of_count hp)
  · intro face shows
    unfold expression at shows
    cases hp : p.sides with
    | none =>
      simp only [hp, Option.elim_none, Die.Shows] at shows
      omega
    | some digits =>
      have less := value_lt_root h (mem_numbers_of_sides hp)
      simp only [hp, Option.elim_some, Die.Shows] at shows
      omega
  · unfold expression bonus
    cases hp : p.constant with
    | none => exact Nat.zero_lt_of_lt two
    | some signed =>
      obtain ⟨sign, digits⟩ := signed
      have less := value_lt_root h (mem_numbers_of_constant hp)
      cases sign <;> simpa [Sign.apply] using less

end Phrase

end Expression

end DiceRoller
