import DiceRoller.Expression.Basic

/-!
# Keeping and dropping

The faces of a pool in ascending order are cut in two, and one side is kept. A cut before
the front counts from the end, and one beyond either end takes the whole pool.
-/

namespace DiceRoller

def ascending (faces : List Int) : List Int := faces.mergeSort

theorem ascending_perm (faces : List Int) : (ascending faces).Perm faces :=
  faces.mergeSort_perm _

theorem ascending_pairwise (faces : List Int) : (ascending faces).Pairwise (· ≤ ·) := by
  have sorted : (ascending faces).Pairwise fun a b => decide (a ≤ b) = true := by
    apply List.pairwise_mergeSort
    · intro a b c
      simp only [decide_eq_true_eq]
      omega
    · intro a b
      simp only [Bool.or_eq_true, decide_eq_true_eq]
      omega
  exact sorted.imp fun h => by simpa using h

theorem length_ascending (faces : List Int) : (ascending faces).length = faces.length :=
  (ascending_perm faces).length_eq

/-- How many faces stand before the cut `place` in a pool of `size`. -/
def cutPlace (size : Nat) (place : Int) : Nat :=
  if place < 0 then (place + size).toNat else min place.toNat size

theorem cutPlace_of_le {size n : Nat} (h : n ≤ size) : cutPlace size n = n := by
  unfold cutPlace
  split <;> omega

structure Selected where
  kept : List Int
  dropped : List Int
  deriving DecidableEq, Repr

def keepBelow (pool : List Int) (place : Int) : Selected :=
  ⟨pool.take (cutPlace pool.length place), pool.drop (cutPlace pool.length place)⟩

theorem keepBelow_append (pool : List Int) (place : Int) :
    (keepBelow pool place).kept ++ (keepBelow pool place).dropped = pool :=
  List.take_append_drop _ pool

def keepAbove (pool : List Int) (place : Int) : Selected :=
  ⟨pool.drop (cutPlace pool.length place), pool.take (cutPlace pool.length place)⟩

theorem keepAbove_append (pool : List Int) (place : Int) :
    (keepAbove pool place).dropped ++ (keepAbove pool place).kept = pool :=
  List.take_append_drop _ pool

/-- The pool is in ascending order. -/
def Selection.apply (amount : Int) (pool : List Int) : Selection → Selected
  | .keepHighest => keepAbove pool (pool.length - amount)
  | .keepLowest => keepBelow pool amount
  | .dropHighest => keepBelow pool (pool.length - amount)
  | .dropLowest => keepAbove pool amount

theorem Selection.apply_perm (amount : Int) (pool : List Int) (rule : Selection) :
    ((rule.apply amount pool).kept ++ (rule.apply amount pool).dropped).Perm pool := by
  cases rule with
  | keepHighest => exact List.perm_append_comm.trans (.of_eq (keepAbove_append _ _))
  | keepLowest => exact .of_eq (keepBelow_append _ _)
  | dropHighest => exact .of_eq (keepBelow_append _ _)
  | dropLowest => exact List.perm_append_comm.trans (.of_eq (keepAbove_append _ _))

end DiceRoller
