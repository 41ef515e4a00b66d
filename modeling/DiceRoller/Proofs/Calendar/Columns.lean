import DiceRoller.Calendar.Moment
import DiceRoller.Proofs.Numeral
import Mathlib.Order.Basic

/-!
# Numbers in columns

Numbers are written one after another, each with zeros in front to the width of its column and with
the mark of the column after it. They can be read back from this text (`read_write`), and the order
of two such texts by their characters is the order of their numbers (`write_lt_write`).
-/

namespace DiceRoller

namespace Moment

variable {width n : Nat}

theorem isDigit_of_mem_padded {c : Char} (h : c ∈ padded width n) : c.isDigit = true := by
  rcases List.mem_append.mp h with zero | digit
  · rw [List.eq_of_mem_replicate zero]
    rfl
  · exact Nat.isDigit_of_mem_toDigits (by decide) (by decide) digit

theorem value_padded (width n : Nat) : Numeral.value (padded width n) = n := by
  rw [padded, Numeral.value_zeros_append, Numeral.value_toDigits]

theorem length_padded (pos : 0 < width) (h : n < 10 ^ width) : (padded width n).length = width := by
  have short := (Nat.length_toDigits_le_iff (by decide) pos).mpr h
  rw [padded, List.length_append, List.length_replicate]
  omega

end Moment

/-- The first difference of two texts is in their fronts or, if these are the same, after them. -/
theorem append_lt_append_of_lt {a b s t : List Char} (length : a.length = b.length)
    (h : a < b) : a ++ s < b ++ t := by
  induction a generalizing b with
  | nil =>
    rw [List.eq_nil_of_length_eq_zero length.symm] at h
    exact absurd h (List.not_lt_nil _)
  | cons c a ih =>
    cases b with
    | nil => simp at length
    | cons d b =>
      rw [List.cons_append, List.cons_append, List.cons_lt_cons_iff]
      rcases List.cons_lt_cons_iff.mp h with less | ⟨same, less⟩
      · exact Or.inl less
      · exact Or.inr ⟨same, ih (Nat.succ.inj length) less⟩

structure Column where
  width : Nat
  mark : Char

namespace Column

open Moment (padded)

def write : List Column → List Nat → List Char
  | column :: columns, n :: numbers =>
    padded column.width n ++ column.mark :: write columns numbers
  | _, _ => []

/-- The numbers of a text that has digits and marks where the columns have them. -/
def read : List Column → List Char → Option (List Nat)
  | [], s => if s = [] then some [] else none
  | column :: columns, s =>
    let digits := s.take column.width
    if digits.length = column.width ∧ digits.all Char.isDigit then
      match s.drop column.width with
      | mark :: rest =>
        if mark = column.mark then (read columns rest).map (Numeral.value digits :: ·) else none
      | [] => none
    else none

def Holds (column : Column) (n : Nat) : Prop := 0 < column.width ∧ n < 10 ^ column.width

/-- Each of the numbers has place in its column. -/
abbrev Fits (columns : List Column) (numbers : List Nat) : Prop :=
  List.Forall₂ Holds columns numbers

variable {columns : List Column} {numbers numbers' : List Nat}

theorem length_write (fits : Fits columns numbers) :
    (write columns numbers).length = (columns.map fun column => column.width + 1).sum := by
  induction fits with
  | nil => rfl
  | cons holds _ ih =>
    rw [write, List.length_append, List.length_cons, ih, Moment.length_padded holds.1 holds.2,
      List.map_cons, List.sum_cons]
    omega

theorem read_write (fits : Fits columns numbers) :
    read columns (write columns numbers) = some numbers := by
  induction fits with
  | nil => rfl
  | @cons column n columns numbers holds _ ih =>
    have length := Moment.length_padded holds.1 holds.2
    have digits : (padded column.width n).all Char.isDigit = true :=
      List.all_eq_true.mpr fun _ => Moment.isDigit_of_mem_padded
    simp only [write, read, List.take_left' length, List.drop_left' length, length, digits,
      and_self, if_true, ih, Option.map_some, Moment.value_padded]

theorem write_lt_write (fits : Fits columns numbers) (fits' : Fits columns numbers')
    (h : numbers < numbers') : write columns numbers < write columns numbers' := by
  induction fits generalizing numbers' with
  | nil =>
    cases fits'
    exact absurd h (List.not_lt_nil _)
  | @cons column n columns numbers holds _ ih =>
    cases fits' with
    | @cons _ n' _ numbers' holds' fits' =>
      have length := Moment.length_padded holds.1 holds.2
      have length' := Moment.length_padded holds'.1 holds'.2
      rw [write, write]
      rcases List.cons_lt_cons_iff.mp h with less | ⟨rfl, less⟩
      · apply append_lt_append_of_lt (length.trans length'.symm)
        refine Numeral.lt_of_value_lt (fun _ => Moment.isDigit_of_mem_padded)
          (fun _ => Moment.isDigit_of_mem_padded) (length.trans length'.symm) ?_
        rwa [Moment.value_padded, Moment.value_padded]
      · apply List.append_left_lt
        rw [List.cons_lt_cons_iff]
        exact Or.inr ⟨rfl, ih fits' less⟩

end Column

end DiceRoller
