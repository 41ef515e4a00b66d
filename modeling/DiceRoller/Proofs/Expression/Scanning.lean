import DiceRoller.Proofs.Expression.Grammar
import DiceRoller.Proofs.Text.Trimming
import Mathlib.Data.List.TakeWhile

/-!
# What a scan finds

A scan succeeds exactly on the texts of outlines, which are phrases with any number of pairs
and any tail (`exists_outline_of_scan`, `Outline.scan_chars`). The pairs found are the longest
ones: no pair starts the tail, and no pair could have taken another digit.
-/

namespace DiceRoller.Expression

section DigitRuns

variable {run rest : List Char} (digits : ∀ c ∈ run, c.isDigit = true) (ends : EndsDigits rest)

include digits ends

theorem digitRun_append : digitRun (run ++ rest) = run :=
  Text.takeWhile_append_of_stops digits ends

theorem afterDigits_append : afterDigits (run ++ rest) = rest :=
  Text.dropWhile_append_of_stops digits ends

end DigitRuns

theorem isDigit_of_mem_digitRun {s : List Char} {c : Char} (h : c ∈ digitRun s) :
    c.isDigit = true :=
  List.mem_takeWhile_imp h

theorem endsDigits_afterDigits (s : List Char) : EndsDigits (afterDigits s) := by
  intro c hc
  have stops := List.head?_dropWhile_not Char.isDigit s
  rw [afterDigits, Option.mem_def] at hc
  simpa [hc] using stops

/-- The digits at the front of a text that starts with one. -/
def Digits.ofRun (s : List Char) (h : digitRun s ≠ []) : Digits :=
  ⟨digitRun s, h, fun _ => isDigit_of_mem_digitRun⟩

theorem keyword?_chars (spelling : Spelling) (digits : Digits) (rest : List Char) :
    keyword? (spelling.chars ++ (digits.chars ++ rest)) =
      some (spelling.keyword, digits.chars ++ rest) := by
  obtain ⟨c, s, hc, isDigit⟩ := digits.exists_eq_cons
  have notH : c ≠ 'h' := by rintro rfl; exact absurd isDigit (by decide)
  have notL : c ≠ 'l' := by rintro rfl; exact absurd isDigit (by decide)
  cases spelling <;> simp [Spelling.chars, Spelling.keyword, keyword?, hc, notH, notL]

theorem exists_spelling_of_keyword? {s rest : List Char} {keyword : Keyword}
    (h : keyword? s = some (keyword, rest)) :
    ∃ spelling : Spelling, spelling.keyword = keyword ∧ s = spelling.chars ++ rest := by
  unfold keyword? at h
  split at h <;> simp only [Option.some.injEq, Prod.mk.injEq, reduceCtorEq] at h <;>
    obtain ⟨rfl, rfl⟩ := h
  · exact ⟨.kh, rfl, rfl⟩
  · exact ⟨.kl, rfl, rfl⟩
  · exact ⟨.k, rfl, rfl⟩
  · exact ⟨.dh, rfl, rfl⟩
  · exact ⟨.dl, rfl, rfl⟩
  · exact ⟨.d, rfl, rfl⟩
  · exact ⟨.ev, rfl, rfl⟩
  · exact ⟨.rv, rfl, rfl⟩
  · exact ⟨.v, rfl, rfl⟩

def Pair.clause (pair : Pair) : Clause := ⟨pair.spelling.keyword, pair.digits.chars⟩

/-- One step of the scan takes a keyword and all the digits after it. -/
theorem clause?_eq_some_iff {s rest : List Char} {clause : Clause} :
    clause? s = some (clause, rest) ↔
      ∃ pair : Pair, pair.clause = clause ∧ s = pair.chars ++ rest ∧ EndsDigits rest := by
  constructor
  · intro h
    unfold clause? at h
    cases found : keyword? s with
    | none => simp [found] at h
    | some cut =>
      obtain ⟨keyword, t⟩ := cut
      obtain ⟨spelling, rfl, rfl⟩ := exists_spelling_of_keyword? found
      by_cases none : digitRun t = []
      · simp [found, none] at h
      · simp only [found, List.isEmpty_iff, none, if_false, Option.some.injEq,
          Prod.mk.injEq] at h
        obtain ⟨rfl, rfl⟩ := h
        refine ⟨⟨spelling, .ofRun t none⟩, rfl, ?_, endsDigits_afterDigits t⟩
        simp only [Pair.chars, Digits.ofRun, List.append_assoc, digitRun_append_afterDigits]
  · rintro ⟨⟨spelling, digits⟩, rfl, rfl, ends⟩
    simp only [clause?, Pair.chars, List.append_assoc, keyword?_chars,
      digitRun_append digits.isDigit ends, afterDigits_append digits.isDigit ends,
      List.isEmpty_iff, digits.ne_nil, if_false, Pair.clause]

/-- The scan for pairs leaves nothing out. -/
theorem exists_pairs (s : List Char) : ∃ pairs : List Pair,
    (clauses s).1 = pairs.map Pair.clause ∧ s = pairs.flatMap Pair.chars ++ (clauses s).2 := by
  fun_induction clauses s with
  | case1 s h => exact ⟨[], rfl, rfl⟩
  | case2 s clause rest h later ih =>
    obtain ⟨pairs, found, cut⟩ := ih
    obtain ⟨pair, rfl, rfl, -⟩ := clause?_eq_some_iff.mp h
    refine ⟨pair :: pairs, ?_, ?_⟩
    · rw [List.map_cons, ← found]
    · rw [List.flatMap_cons, List.append_assoc, ← cut]

theorem endsDigits_pairs (pairs : List Pair) {tail : List Char} (h : EndsDigits tail) :
    EndsDigits (pairs.flatMap Pair.chars ++ tail) := by
  cases pairs with
  | nil => exact h
  | cons pair pairs =>
    rw [List.flatMap_cons, List.append_assoc]
    exact pair.endsDigits _

theorem clauses_pairs (pairs : List Pair) {tail : List Char} (ends : EndsDigits tail)
    (h : clause? tail = none) :
    clauses (pairs.flatMap Pair.chars ++ tail) = (pairs.map Pair.clause, tail) := by
  induction pairs with
  | nil => exact clauses_of_none h
  | cons pair pairs ih =>
    have step : clause? ((pair :: pairs).flatMap Pair.chars ++ tail) =
        some (pair.clause, pairs.flatMap Pair.chars ++ tail) := by
      rw [clause?_eq_some_iff]
      exact ⟨pair, rfl, by rw [List.flatMap_cons, List.append_assoc], endsDigits_pairs pairs ends⟩
    rw [clauses_of_some step, ih, List.map_cons]

/-- A phrase before it is known whether its modifiers agree and its tail is a constant. -/
structure Outline where
  count : Option Digits
  sides : Option Digits
  pairs : List Pair
  tail : List Char

namespace Outline

def chars (o : Outline) : List Char :=
  o.count.elim [] Digits.chars ++
    'd' :: (o.sides.elim ['f'] Digits.chars ++ (o.pairs.flatMap Pair.chars ++ o.tail))

def draft (o : Outline) : Draft where
  count := o.count.elim [] Digits.chars
  sides := o.sides.map Digits.chars
  clauses := o.pairs.map Pair.clause
  tail := o.tail

theorem sides?_chars (o : Outline) {rest : List Char} (ends : EndsDigits rest) :
    sides? (o.sides.elim ['f'] Digits.chars ++ rest) = some (o.sides.map Digits.chars, rest) := by
  cases o.sides with
  | none => rfl
  | some digits =>
    obtain ⟨c, s, hc, isDigit⟩ := digits.exists_eq_cons
    have notF : ∀ t, digits.chars ++ rest ≠ 'f' :: t := by
      intro t h
      rw [hc, List.cons_append, List.cons.injEq] at h
      exact absurd isDigit (by rw [h.1]; decide)
    unfold sides?
    split
    · rename_i t h
      exact absurd h (notF t)
    · simp only [Option.elim_some, digitRun_append digits.isDigit ends,
        afterDigits_append digits.isDigit ends, List.isEmpty_iff, digits.ne_nil, if_false,
        Option.map_some]

/-- Every outline whose tail starts with no pair is found by the scan. -/
theorem scan_chars (o : Outline) (ends : EndsDigits o.tail) (last : clause? o.tail = none) :
    Draft.scan o.chars = some o.draft := by
  have digits : ∀ c ∈ o.count.elim [] Digits.chars, c.isDigit = true := by
    cases o.count with
    | none => simp
    | some count => exact count.isDigit
  have separator (s : List Char) : EndsDigits ('d' :: s) := endsDigits_cons rfl
  simp only [Draft.scan, chars, afterDigits_append digits (separator _),
    digitRun_append digits (separator _), o.sides?_chars (endsDigits_pairs o.pairs ends),
    clauses_pairs o.pairs ends last, draft]

end Outline

theorem exists_digits_of_digitRun (s : List Char) :
    ∃ digits : Option Digits, digits.elim [] Digits.chars = digitRun s := by
  by_cases h : digitRun s = []
  · exact ⟨none, h.symm⟩
  · exact ⟨some (.ofRun s h), rfl⟩

theorem exists_digits_of_sides? {s rest : List Char} {found : Option (List Char)}
    (h : sides? s = some (found, rest)) : ∃ digits : Option Digits,
      digits.map Digits.chars = found ∧ s = digits.elim ['f'] Digits.chars ++ rest := by
  unfold sides? at h
  split at h
  · simp only [Option.some.injEq, Prod.mk.injEq] at h
    obtain ⟨rfl, rfl⟩ := h
    exact ⟨none, rfl, rfl⟩
  · by_cases none : digitRun s = []
    · simp [none] at h
    · simp only [List.isEmpty_iff, none, if_false, Option.some.injEq, Prod.mk.injEq] at h
      obtain ⟨rfl, rfl⟩ := h
      exact ⟨some (.ofRun s none), rfl, (digitRun_append_afterDigits s).symm⟩

/-- Whatever the scan accepts is the text of an outline. -/
theorem exists_outline_of_scan {s : List Char} {draft : Draft} (h : Draft.scan s = some draft) :
    ∃ o : Outline, o.chars = s ∧ o.draft = draft := by
  obtain ⟨count, hcount⟩ := exists_digits_of_digitRun s
  have whole := digitRun_append_afterDigits s
  unfold Draft.scan at h
  split at h
  · rename_i rest separator
    split at h
    · rename_i sides rest' hsides
      obtain ⟨digits, rfl, rfl⟩ := exists_digits_of_sides? hsides
      obtain ⟨pairs, found, cut⟩ := exists_pairs rest'
      simp only [Option.some.injEq] at h
      subst h
      refine ⟨⟨count, digits, pairs, (clauses rest').2⟩, ?_, ?_⟩
      · simp only [Outline.chars, hcount, ← cut, ← separator, whole]
      · simp only [Outline.draft, hcount, found]
    · simp at h
  · simp at h

end DiceRoller.Expression
