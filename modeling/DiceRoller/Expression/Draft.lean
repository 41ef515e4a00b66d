import DiceRoller.Expression.Basic

/-!
# Drafts

A draft cuts a canonical text into its parts without weighing them: the digits of the count,
the sides, every pair of a keyword and a digit run, and the tail. No numeral is read and no
rule on repeated modifiers is applied here. By `clause?_length_lt` the scan for pairs ends.
-/

namespace DiceRoller.Expression

inductive Keyword
  | select (rule : Selection)
  | count (rule : Counting)
  deriving DecidableEq, Repr

/-- The longest keyword at the front of a text, and what follows it. -/
def keyword? : List Char → Option (Keyword × List Char)
  | 'k' :: 'h' :: s => some (.select .keepHighest, s)
  | 'k' :: 'l' :: s => some (.select .keepLowest, s)
  | 'k' :: s => some (.select .keepHighest, s)
  | 'd' :: 'h' :: s => some (.select .dropHighest, s)
  | 'd' :: 'l' :: s => some (.select .dropLowest, s)
  | 'd' :: s => some (.select .dropLowest, s)
  | 'e' :: 'v' :: s => some (.count .exploding, s)
  | 'r' :: 'v' :: s => some (.count .reroll, s)
  | 'v' :: s => some (.count .versus, s)
  | _ => none

theorem keyword?_length_lt {s rest : List Char} {keyword : Keyword}
    (h : keyword? s = some (keyword, rest)) : rest.length < s.length := by
  unfold keyword? at h
  split at h <;> simp only [Option.some.injEq, Prod.mk.injEq, reduceCtorEq] at h <;>
    (obtain ⟨-, rfl⟩ := h; simp only [List.length_cons]; omega)

/-- The digits 0 to 9 alone. -/
def digitRun (s : List Char) : List Char := s.takeWhile Char.isDigit

def afterDigits (s : List Char) : List Char := s.dropWhile Char.isDigit

theorem digitRun_append_afterDigits (s : List Char) : digitRun s ++ afterDigits s = s :=
  List.takeWhile_append_dropWhile

theorem afterDigits_length_le (s : List Char) : (afterDigits s).length ≤ s.length :=
  (List.dropWhile_sublist _).length_le

structure Clause where
  keyword : Keyword
  digits : List Char
  deriving DecidableEq, Repr

/-- A keyword is one only before digits. -/
def clause? (s : List Char) : Option (Clause × List Char) :=
  match keyword? s with
  | none => none
  | some (keyword, rest) =>
    if (digitRun rest).isEmpty then none
    else some (⟨keyword, digitRun rest⟩, afterDigits rest)

theorem clause?_length_lt {s rest : List Char} {clause : Clause}
    (h : clause? s = some (clause, rest)) : rest.length < s.length := by
  unfold clause? at h
  split at h
  · simp at h
  · rename_i keyword t ht
    split at h
    · simp at h
    · simp only [Option.some.injEq, Prod.mk.injEq] at h
      obtain ⟨-, rfl⟩ := h
      exact Nat.lt_of_le_of_lt (afterDigits_length_le t) (keyword?_length_lt ht)

/-- All clauses at the front of a text, and the tail that starts with none. -/
def clauses (s : List Char) : List Clause × List Char :=
  match _h : clause? s with
  | none => ([], s)
  | some (clause, rest) =>
    let later := clauses rest
    (clause :: later.1, later.2)
termination_by s.length
decreasing_by exact clause?_length_lt _h

theorem clauses_of_none {s : List Char} (h : clause? s = none) : clauses s = ([], s) := by
  rw [clauses]
  split
  · rfl
  · simp_all

theorem clauses_of_some {s rest : List Char} {clause : Clause}
    (h : clause? s = some (clause, rest)) :
    clauses s = (clause :: (clauses rest).1, (clauses rest).2) := by
  rw [clauses]
  split
  · simp_all
  · rename_i h'
    rw [h] at h'
    cases h'
    rfl

/-- The sides are a digit run, or none for a Fate die. -/
structure Draft where
  count : List Char
  sides : Option (List Char)
  clauses : List Clause
  tail : List Char
  deriving DecidableEq, Repr

/-- What stands after the letter that separates count and sides. -/
def sides? : List Char → Option (Option (List Char) × List Char)
  | 'f' :: s => some (none, s)
  | s => if (digitRun s).isEmpty then none else some (some (digitRun s), afterDigits s)

def Draft.scan (s : List Char) : Option Draft :=
  match afterDigits s with
  | 'd' :: rest =>
    match sides? rest with
    | some (sides, rest) =>
      some ⟨digitRun s, sides, (Expression.clauses rest).1, (Expression.clauses rest).2⟩
    | none => none
  | _ => none

end DiceRoller.Expression
