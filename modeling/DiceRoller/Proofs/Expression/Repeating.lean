import DiceRoller.Proofs.Expression.Modifiers

/-!
# Modifiers that repeat

What follows the sides falls in one way only into pairs of a keyword and all the digits after it,
and a tail that starts with no pair (`Scan.unique`). What is made of the pairs hangs on their kinds
alone. The first pair that repeats the kind of an earlier one is reported, and where no pair does
there are at most two, which cannot be combined (`readModifier_of_scan`).
-/

namespace DiceRoller.Expression

open Numeral (ShortRuns maxDigits)

/-- A text falls into pairs, as long as each of them can be and as many as there are, and a
tail. -/
inductive Scan : List Char → List Pair → List Char → Prop
  | done {tail : List Char} (last : ∀ pair : Pair, ¬ pair.chars <+: tail) : Scan tail [] tail
  | step {rest tail : List Char} {pairs : List Pair} (pair : Pair) (longest : EndsDigits rest)
      (later : Scan rest pairs tail) : Scan (pair.chars ++ rest) (pair :: pairs) tail

theorem clause?_eq_none_iff {s : List Char} :
    clause? s = none ↔ ∀ pair : Pair, ¬ pair.chars <+: s := by
  constructor
  · rintro none ⟨spelling, digits⟩ ⟨rest, rfl⟩
    obtain ⟨c, more, hc, isDigit⟩ := digits.exists_eq_cons
    have run : (digitRun (digits.chars ++ rest)).isEmpty = false := by
      simp [digitRun, hc, isDigit]
    simp [Pair.chars, clause?, keyword?_chars, run] at none
  · intro last
    cases found : clause? s with
    | none => rfl
    | some cut =>
      obtain ⟨pair, -, rfl, -⟩ := clause?_eq_some_iff.mp found
      exact absurd (List.prefix_append _ _) (last pair)

namespace Scan

theorem exists_of_text (s : List Char) : ∃ pairs tail, Scan s pairs tail := by
  fun_induction clauses s with
  | case1 s none => exact ⟨[], s, done (clause?_eq_none_iff.mp none)⟩
  | case2 s clause rest found later ih =>
    obtain ⟨pair, -, rfl, longest⟩ := clause?_eq_some_iff.mp found
    obtain ⟨pairs, tail, scan⟩ := ih
    exact ⟨pair :: pairs, tail, step pair longest scan⟩

variable {s tail : List Char} {pairs : List Pair} (scan : Scan s pairs tail)

include scan

theorem clauses_eq : clauses s = (pairs.map Pair.clause, tail) := by
  induction scan with
  | done last => exact clauses_of_none (clause?_eq_none_iff.mpr last)
  | step pair longest later ih =>
    have found := clause?_eq_some_iff.mpr ⟨pair, rfl, rfl, longest⟩
    rw [clauses_of_some found, ih, List.map_cons]

/-- A keyword ends at the first digit, and a number at the first other character. -/
theorem unique {pairs' : List Pair} {tail' : List Char} (scan' : Scan s pairs' tail') :
    pairs' = pairs ∧ tail' = tail := by
  induction scan generalizing pairs' with
  | done last =>
    cases scan' with
    | done => exact ⟨rfl, rfl⟩
    | step pair => exact absurd (List.prefix_append _ _) (last pair)
  | @step rest tail pairs pair longest later ih =>
    generalize whole : pair.chars ++ rest = text at scan'
    cases scan' with
    | done last => exact absurd ⟨rest, whole⟩ (last pair)
    | step pair' longest' later' =>
      obtain ⟨rfl, rfl⟩ := Pair.chars_append_inj longest longest' whole
      obtain ⟨rfl, rfl⟩ := ih later'
      exact ⟨rfl, rfl⟩

theorem length_le (short : ShortRuns s) :
    ∀ pair ∈ pairs, pair.digits.chars.length ≤ maxDigits := by
  induction scan with
  | done => exact nofun
  | step pair longest later ih =>
    have number := short.left.right _ (List.infix_refl _) pair.digits.isDigit
    exact List.forall_mem_cons.mpr ⟨number, ih short.right⟩

end Scan

/-- What is said of a second modifier of the kind. -/
def Kind.repeated : Kind → String
  | selection => "More than one keep/drop modifier"
  | counting => "More than one success modifier"

/-- The fault of a text that breaks the grammar, with examples of texts that do not. -/
def complain (text phrase : String) : Failure :=
  .fault ⟨.malformed, phrase ++ " in '" ++ text ++ "'. Example: '2d6+3', '4d6kh3' or '6d10v8'."⟩

theorem refuse_second (text : String) (kind : Kind) :
    refuse text kind.second = complain text kind.repeated := by
  cases kind <;> rfl

/-- A text has one scan, which is the one that is read. No pair in it makes no modifier, and one
pair makes its own. Two pairs of different kinds cannot be combined. In every other case the first
pair that repeats the kind of an earlier one is reported, whatever stands after it. -/
theorem readModifier_of_scan (text : String) {t : List Char} (short : ShortRuns t) :
    (∃! cut : List Pair × List Char, Scan t cut.1 cut.2) ∧
    ∀ pairs tail, Scan t pairs tail →
      clauses t = (pairs.map Pair.clause, tail) ∧
      (pairs = [] → tail = t ∧ readModifier text (clauses t).1 = .ok none) ∧
      (∀ pair, pairs = [pair] → readModifier text (clauses t).1 = .ok (some pair.modifier)) ∧
      (∀ p q, pairs = [p, q] → p.kind ≠ q.kind → readModifier text (clauses t).1 =
        .error (complain text "Keep/drop and success counting cannot be combined")) ∧
      (∀ pair, FirstToRepeat pairs pair → readModifier text (clauses t).1 =
        .error (complain text pair.kind.repeated)) ∧
      (pairs = [] ∨ (∃ pair, pairs = [pair]) ∨ (∃ p q, pairs = [p, q] ∧ p.kind ≠ q.kind) ∨
        ∃ pair, FirstToRepeat pairs pair) := by
  constructor
  · obtain ⟨pairs, tail, scan⟩ := Scan.exists_of_text t
    refine ⟨(pairs, tail), scan, ?_⟩
    rintro ⟨pairs', tail'⟩ scan'
    obtain ⟨rfl, rfl⟩ := scan.unique scan'
    rfl
  intro pairs tail scan
  have shortPairs := scan.length_le short
  refine ⟨scan.clauses_eq, ?_⟩
  rw [scan.clauses_eq]
  refine ⟨?_, ?_, ?_, ?_, ?_⟩
  · rintro rfl
    cases scan
    exact ⟨rfl, readModifier_nil text⟩
  · rintro pair rfl
    exact readModifier_singleton text (shortPairs pair (List.mem_singleton_self pair))
  · intro p q two apart
    exact readModifier_of_kind_ne text shortPairs two apart
  · intro pair first
    rw [← refuse_second]
    exact readModifier_of_firstToRepeat text shortPairs first
  · by_cases apart : (pairs.map Pair.kind).Nodup
    · rcases cases_of_nodup apart with none | one | two
      · exact Or.inl none
      · exact Or.inr (Or.inl one)
      · exact Or.inr (Or.inr (Or.inl two))
    · exact Or.inr (Or.inr (Or.inr (exists_firstToRepeat apart)))

theorem readModifier_of_third_pair :
    let t := ['v', '2', 'k', 'h', '3', 'd', '1', '+', 'x']
    ShortRuns t ∧ (∃ pairs pair, Scan t pairs ['+', 'x'] ∧ FirstToRepeat pairs pair ∧
      pair.kind = .selection) ∧
      readModifier "1d6v2kh3d1+x" (clauses t).1 =
        .error (complain "1d6v2kh3d1+x" "More than one keep/drop modifier") := by
  intro t
  have short : ShortRuns t := .of_length_le (by decide)
  let one : Digits := ⟨['1'], by simp, by simp⟩
  let two : Digits := ⟨['2'], by simp, by simp⟩
  let three : Digits := ⟨['3'], by simp, by simp⟩
  have scan : Scan t [⟨.v, two⟩, ⟨.kh, three⟩, ⟨.d, one⟩] ['+', 'x'] :=
    .step ⟨.v, two⟩ (endsDigits_cons rfl) <| .step ⟨.kh, three⟩ (endsDigits_cons rfl) <|
      .step ⟨.d, one⟩ (endsDigits_cons rfl) <| .done (clause?_eq_none_iff.mp rfl)
  have first : FirstToRepeat [⟨.v, two⟩, ⟨.kh, three⟩, ⟨.d, one⟩] ⟨.d, one⟩ :=
    ⟨[⟨.v, two⟩, ⟨.kh, three⟩], [], rfl, by decide, by decide⟩
  have read := ((readModifier_of_scan "1d6v2kh3d1+x" short).2 _ _ scan).2.2.2.2.1 _ first
  exact ⟨short, ⟨_, _, scan, first, rfl⟩, read⟩

end DiceRoller.Expression
