import DiceRoller.Proofs.Pool.BestCut
import DiceRoller.Proofs.Pool.Making
import Mathlib.Algebra.Order.BigOperators.Group.List

/-!
# Higher faces

Faces are raised when each of them is replaced by one that is no lower. Which dice a selection
keeps may change then, but not to the worse: sorting keeps raised faces raised place by place
(`Raised.ascending`), and a selection cuts at a place that depends on the size of the pool
alone. So an expression that does not expand makes no less of raised faces (`makes_raised`).
-/

namespace DiceRoller

/-- The second faces are as many as the first, and none is lower than the one in its place. -/
abbrev Raised (faces higher : List Int) : Prop := List.Forall₂ (· ≤ ·) faces higher

theorem ascending_eq_insertionSort (faces : List Int) :
    ascending faces = faces.insertionSort (· ≤ ·) :=
  List.mergeSort_eq_insertionSort (· ≤ ·) faces

theorem orderedInsert_of_ordered {face : Int} {faces : List Int}
    (ordered : (face :: faces).Pairwise (· ≤ ·)) :
    faces.orderedInsert (· ≤ ·) face = face :: faces := by
  cases faces with
  | nil => rfl
  | cons other faces =>
    exact List.orderedInsert_cons_of_le _ _ (List.rel_of_pairwise_cons ordered List.mem_cons_self)

namespace Raised

section Sorting

variable {faces higher : List Int}

/-- Where only one of the two faces comes to the front, the front face of the other row takes the
place of the other one. -/
theorem orderedInsert (h : Raised faces higher) (ordered : faces.Pairwise (· ≤ ·))
    (ordered' : higher.Pairwise (· ≤ ·)) {face face' : Int} (le : face ≤ face') :
    Raised (faces.orderedInsert (· ≤ ·) face) (higher.orderedInsert (· ≤ ·) face') := by
  induction h generalizing face face' with
  | nil => exact .cons le .nil
  | @cons a b faces higher first later ih =>
    have insert {x y : Int} (le : x ≤ y) := ih ordered.of_cons ordered'.of_cons le
    by_cases low : face ≤ a
    · rw [List.orderedInsert_cons_of_le _ _ low]
      by_cases low' : face' ≤ b
      · rw [List.orderedInsert_cons_of_le _ _ low']
        exact .cons le (.cons first later)
      · rw [List.orderedInsert_of_not_le _ _ low', ← orderedInsert_of_ordered ordered]
        exact .cons (low.trans first) (insert (by omega))
    · rw [List.orderedInsert_of_not_le _ _ low]
      by_cases low' : face' ≤ b
      · rw [List.orderedInsert_cons_of_le _ _ low', ← orderedInsert_of_ordered ordered']
        exact .cons (by omega) (insert (by omega))
      · rw [List.orderedInsert_of_not_le _ _ low']
        exact .cons first (insert le)

/-- The least face is no lower than before, nor is the second least, and so on. -/
theorem ascending (h : Raised faces higher) : Raised (ascending faces) (ascending higher) := by
  rw [ascending_eq_insertionSort, ascending_eq_insertionSort]
  induction h with
  | nil => exact .nil
  | @cons a b faces higher first later ih =>
    exact ih.orderedInsert (faces.pairwise_insertionSort _) (higher.pairwise_insertionSort _) first

theorem hits_le (h : Raised faces higher) (threshold : Int) :
    hits threshold faces ≤ hits threshold higher := by
  induction h with
  | nil => exact Nat.le_refl 0
  | @cons a b faces higher first later ih =>
    unfold hits at ih ⊢
    rw [List.countP_cons, List.countP_cons]
    by_cases hit : isHit threshold a = true
    · have hit' := (isHit_eq_true_iff threshold).mpr
        (((isHit_eq_true_iff threshold).mp hit).trans first)
      rw [if_pos hit, if_pos hit']
      exact Nat.succ_le_succ ih
    · rw [if_neg hit]
      exact ih.trans (Nat.le_add_right _ _)

end Sorting

section Cutting

variable {pool higher : List Int} (h : Raised pool higher)

include h

theorem keepAbove (place : Int) :
    Raised (keepAbove pool place).kept (keepAbove higher place).kept ∧
      Raised (keepAbove pool place).dropped (keepAbove higher place).dropped := by
  unfold DiceRoller.keepAbove
  rw [h.length_eq]
  exact ⟨List.forall₂_drop _ h, List.forall₂_take _ h⟩

theorem keepBelow (place : Int) :
    Raised (keepBelow pool place).kept (keepBelow higher place).kept ∧
      Raised (keepBelow pool place).dropped (keepBelow higher place).dropped := by
  unfold DiceRoller.keepBelow
  rw [h.length_eq]
  exact ⟨List.forall₂_take _ h, List.forall₂_drop _ h⟩

theorem apply (rule : Selection) (amount : Int) :
    Raised (rule.apply amount pool).kept (rule.apply amount higher).kept ∧
      Raised (rule.apply amount pool).dropped (rule.apply amount higher).dropped := by
  have size := h.length_eq
  cases rule with
  | keepHighest => simpa only [Selection.apply, size] using h.keepAbove (pool.length - amount)
  | keepLowest => exact h.keepBelow amount
  | dropHighest => simpa only [Selection.apply, size] using h.keepBelow (pool.length - amount)
  | dropLowest => exact h.keepAbove amount

end Cutting

end Raised

/-- The second tally shows raised faces, kept and dropped, and its total is no lower. -/
structure Tally.RaisedTo (tally better : Tally) : Prop where
  rolls : Raised tally.rolls better.rolls
  dropped : Raised tally.dropped better.dropped
  total : tally.total ≤ better.total

theorem Tally.raisedTo_ofSelected (bonus : Int) {selected better : Selected}
    (kept : Raised selected.kept better.kept) (dropped : Raised selected.dropped better.dropped) :
    (ofSelected bonus selected).RaisedTo (ofSelected bonus better) :=
  ⟨kept, dropped, Int.add_le_add_right kept.sum_le_sum bonus⟩

theorem Tally.raisedTo_ofHits (threshold bonus : Int) {faces higher : List Int}
    (h : Raised faces higher) :
    (ofHits threshold bonus faces).RaisedTo (ofHits threshold bonus higher) :=
  ⟨h.ascending, .nil, Int.add_le_add_right (Int.ofNat_le.mpr (h.hits_le threshold)) bonus⟩

namespace Expression

theorem score_raised (e : Expression) {faces higher : List Int} (h : Raised faces higher) :
    (e.score faces).RaisedTo (e.score higher) := by
  unfold score
  match e.modifier with
  | none => exact Tally.raisedTo_ofSelected e.bonus h.ascending .nil
  | some (.select rule amount) =>
    obtain ⟨kept, dropped⟩ := h.ascending.apply rule amount
    exact Tally.raisedTo_ofSelected e.bonus kept dropped
  | some (.count _ threshold) => exact Tally.raisedTo_ofHits threshold e.bonus h

/-- An expression that does not expand makes something of any faces for its dice, and of raised
faces it makes a tally that is raised as well. -/
theorem makes_raised {e : Expression} (plain : e.expansion? = none) {faces higher : List Int}
    (size : faces.length = e.count.toNat) (raised : Raised faces higher) :
    ∃ tally better : Tally, e.Makes faces tally ∧ e.Makes higher better ∧
      tally.RaisedTo better := by
  have size' : higher.length = e.count.toNat := raised.length_eq.symm.trans size
  exact ⟨_, _, makes_score plain size, makes_score plain size', e.score_raised raised⟩

/-- The five that is raised to a nine is kept in place of the seven. -/
theorem makes_raised_other_die_kept :
    let e : Expression := ⟨3, .numbered 10, some (.select .keepHighest 1), some 2⟩
    e.expansion? = none ∧ [7, 5, 1].length = e.count.toNat ∧ Raised [7, 5, 1] [7, 9, 1] ∧
      e.Makes [7, 5, 1] ⟨[7], [1, 5], 9⟩ ∧ e.Makes [7, 9, 1] ⟨[9], [1, 7], 11⟩ ∧
      (⟨[7], [1, 5], 9⟩ : Tally).RaisedTo ⟨[9], [1, 7], 11⟩ := by
  intro e
  have plain : e.expansion? = none := rfl
  have size : [7, 5, 1].length = e.count.toNat := rfl
  have raised : Raised [7, 5, 1] [7, 9, 1] := by simp
  have sorted : ascending [7, 5, 1] = [1, 5, 7] :=
    ascending_eq_of_ordered (by decide) (by decide)
  have sorted' : ascending [7, 9, 1] = [1, 7, 9] :=
    ascending_eq_of_ordered (by decide) (by decide)
  have score : e.score [7, 5, 1] = ⟨[7], [1, 5], 9⟩ := by
    rw [Expression.score, sorted]
    rfl
  have score' : e.score [7, 9, 1] = ⟨[9], [1, 7], 11⟩ := by
    rw [Expression.score, sorted']
    rfl
  obtain ⟨tally, better, makes, makes', exceeds⟩ := makes_raised plain size raised
  obtain rfl := ((makes_iff plain size).mp makes).trans score
  obtain rfl := ((makes_iff plain rfl).mp makes').trans score'
  exact ⟨plain, size, raised, makes, makes', exceeds⟩

end Expression

end DiceRoller
