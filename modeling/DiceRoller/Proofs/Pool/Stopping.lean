import DiceRoller.Pool.Expanding
import DiceRoller.Proofs.Roll.Supply
import Mathlib.Data.Nat.Nth

/-!
# Where a rerolling pool stops

The number of pending dice is what the count is ahead of the misses drawn. So the pool stops
at the miss that makes them equal, or at the end of its budget when that comes first.
-/

namespace DiceRoller

variable {σ : Type} [DiceSource σ] {die : Die} (supply : Supply σ die) (threshold : Int)

/-- The draws of a supply that are misses, counted from zero. -/
def Supply.Misses (i : Nat) : Prop := supply.face i < threshold

instance : DecidablePred (supply.Misses threshold) :=
  fun i => inferInstanceAs (Decidable (supply.face i < threshold))

theorem isHit_eq_false_iff {face : Int} : isHit threshold face = false ↔ face < threshold := by
  simp [isHit]

theorem isHit_eq_true_iff {face : Int} : isHit threshold face = true ↔ threshold ≤ face := by
  simp [isHit]

/-- How many faces are drawn up to the miss number `count`. -/
noncomputable def Supply.closing (count : Nat) : Nat :=
  Nat.nth (supply.Misses threshold) (count - 1) + 1

theorem Supply.closing_eq_succ {count k : Nat} (miss : supply.Misses threshold k)
    (last : Nat.count (supply.Misses threshold) k + 1 = count) :
    supply.closing threshold count = k + 1 := by
  rw [closing, ← last, Nat.add_sub_cancel, Nat.nth_count miss]

theorem Supply.count_misses_succ (k : Nat) :
    Nat.count (supply.Misses threshold) (k + 1) =
      Nat.count (supply.Misses threshold) k +
        if isHit threshold (supply.face k) = true then 0 else 1 := by
  rw [Nat.count_succ]
  by_cases hit : isHit threshold (supply.face k) = true
  · rw [if_pos hit, if_neg]
    exact not_lt.mpr ((isHit_eq_true_iff threshold).mp hit)
  · rw [if_neg hit, if_pos]
    exact (isHit_eq_false_iff threshold).mp (Bool.eq_false_iff.mpr hit)

theorem reroll_pending_zero {ε : Type} (budget : Nat) (drawn : List Int) :
    reroll (ε := ε) die threshold budget 0 drawn = .done (.ok (some drawn.reverse)) := by
  cases budget <;> simp [reroll]

variable {threshold} (before : Nat) {count : Nat}

/-- After `k` draws the pending dice are what the count is ahead of the misses. -/
theorem Supply.run_reroll_from {ε : Type} (budget k : Nat)
    (ahead : Nat.count (supply.Misses threshold) k < count) :
    (reroll (ε := ε) die threshold budget (count - Nat.count (supply.Misses threshold) k)
        (supply.faces k).reverse).run (supply.tray before k) =
      if Nat.count (supply.Misses threshold) (k + budget) < count then
        ⟨.finished none, supply.tray before (k + budget), []⟩
      else
        ⟨.finished (some (supply.faces (supply.closing threshold count))),
          supply.tray before (supply.closing threshold count), []⟩ := by
  have pending : (count - Nat.count (supply.Misses threshold) k : Int) ≠ 0 := by omega
  induction budget generalizing k with
  | zero => rw [reroll, if_neg pending, Nat.add_zero, if_pos ahead, Roll.run]
  | succ budget ih =>
    have next := supply.count_misses_succ threshold k
    have drawn : supply.face k :: (supply.faces k).reverse = (supply.faces (k + 1)).reverse := by
      rw [supply.faces_succ, List.reverse_append]
      rfl
    have steps : k + (budget + 1) = k + 1 + budget := by omega
    rw [reroll, if_neg pending, supply.run_draw, drawn, steps]
    by_cases hit : isHit threshold (supply.face k) = true
    · simp only [if_pos hit, Nat.add_zero] at next ⊢
      rw [← next] at ahead pending ⊢
      exact ih (k + 1) ahead pending
    · rw [if_neg hit] at next ⊢
      have less : (count - Nat.count (supply.Misses threshold) k : Int) - 1 =
          count - Nat.count (supply.Misses threshold) (k + 1) := by omega
      rw [less]
      by_cases more : Nat.count (supply.Misses threshold) (k + 1) < count
      · exact ih (k + 1) more (by omega)
      · -- This miss closes the pool, and later faces cannot take it back.
        have miss : supply.Misses threshold k :=
          (isHit_eq_false_iff threshold).mp (Bool.eq_false_iff.mpr hit)
        have closed : (count - Nat.count (supply.Misses threshold) (k + 1) : Int) = 0 := by omega
        have enough := Nat.count_monotone (supply.Misses threshold)
          (Nat.le_add_right (k + 1) budget)
        rw [closed, reroll_pending_zero, if_neg (by omega),
          supply.closing_eq_succ threshold miss (by omega), List.reverse_reverse]
        rfl

/-- On the supply the pool draws up to the miss that closes its last die and makes `result` of
the faces, or it draws its whole budget and has no result. -/
def Supply.Stops {ε α : Type} (threshold : Int) (budget count : Nat)
    (pool : Roll ε (Option α)) (result : List Int → α) : Prop :=
  ∀ before, pool.run (supply.tray before 0) =
    if Nat.count (supply.Misses threshold) budget < count then
      ⟨.finished none, supply.tray before budget, []⟩
    else
      ⟨.finished (some (result (supply.faces (supply.closing threshold count)))),
        supply.tray before (supply.closing threshold count), []⟩

variable (threshold) in
theorem Supply.stops_reroll {ε : Type} (budget : Nat) (pos : 1 ≤ count) :
    supply.Stops threshold budget count (reroll (ε := ε) die threshold budget count []) id := by
  intro before
  have ahead : Nat.count (supply.Misses threshold) 0 < count := by
    rw [Nat.count_zero]
    omega
  have start := supply.run_reroll_from (ε := ε) before budget 0 ahead
  simpa [supply.faces_zero] using start

end DiceRoller
