import DiceRoller.Proofs.Text.Pieces
import DiceRoller.Settings.Integer

/-!
# Plain numerals

The inner parts of a written integer: a minus or none and plain digits, digits in groups with single
underscores between them, and a point with zeros after it. What each step of the reading takes for
such a part is one, and it takes every such part for what it is.
-/

namespace DiceRoller.Settings

def signed (negative : Bool) (digits : List Char) : List Char :=
  if negative then '-' :: digits else digits

theorem signed_append (negative : Bool) (digits rest : List Char) :
    signed negative digits ++ rest = signed negative (digits ++ rest) := by
  cases negative <;> rfl

def signedValue (negative : Bool) (digits : List Char) : Int :=
  if negative then -(Numeral.value digits : Int) else Numeral.value digits

/-- The digits of a number, not too many and without a needless zero at the front. -/
structure IsPlain (digits : List Char) : Prop where
  ne_nil : digits ≠ []
  isDigit : ∀ c ∈ digits, c.isDigit = true
  lone_zero : digits.head? = some '0' → digits = ['0']
  few : digits.length ≤ Numeral.maxDigits

theorem IsPlain.not_mem {digits : List Char} (h : IsPlain digits) {c : Char}
    (other : c.isDigit = false) : c ∉ digits := by
  intro mem
  simp [h.isDigit c mem] at other

theorem IsPlain.head_ne_minus {digits : List Char} (h : IsPlain digits) :
    digits.head? ≠ some '-' :=
  fun minus => h.not_mem (by decide) (List.mem_of_head? minus)

section Minus

theorem signed_splitMinus (s : List Char) : signed (splitMinus s).1 (splitMinus s).2 = s := by
  unfold splitMinus
  split <;> rfl

theorem splitMinus_signed (negative : Bool) {s : List Char} (h : s.head? ≠ some '-') :
    splitMinus (signed negative s) = (negative, s) := by
  cases negative with
  | true => rfl
  | false =>
    simp only [signed, Bool.false_eq_true, if_false]
    unfold splitMinus
    split
    · exact absurd rfl h
    · rfl

theorem startsTooLong_signed (negative : Bool) {s : List Char} (h : s.head? ≠ some '-') :
    startsTooLong (signed negative s) =
      (s.head? != some '0' && decide (Numeral.maxDigits < (s.takeWhile Char.isDigit).length)) := by
  simp only [startsTooLong, splitMinus_signed negative h]

theorem startsTooLong_cons {c : Char} (s : List Char) (other : c ≠ '-')
    (digit : c.isDigit = false) : startsTooLong (c :: s) = false := by
  have split := startsTooLong_signed false (s := c :: s) (by simpa using other)
  rw [signed, if_neg Bool.false_ne_true] at split
  simp [split, digit]

/-- The text starts with too many digits for a number, after a minus or none. -/
def StartsTooLong (text : List Char) : Prop :=
  ∃ negative digits rest, signed negative digits ++ rest = text ∧
    (∀ c ∈ digits, c.isDigit = true) ∧ digits.head? ≠ some '0' ∧
    Numeral.maxDigits < digits.length

theorem startsTooLong_iff {text : List Char} : startsTooLong text = true ↔ StartsTooLong text := by
  constructor
  · intro h
    have whole := signed_splitMinus text
    unfold startsTooLong at h
    generalize splitMinus text = parts at h whole
    obtain ⟨negative, s⟩ := parts
    simp only [Bool.and_eq_true, bne_iff_ne, decide_eq_true_eq] at h whole
    refine ⟨negative, s.takeWhile Char.isDigit, s.dropWhile Char.isDigit, ?_,
      List.all_eq_true.mp List.all_takeWhile, ?_, h.2⟩
    · rw [signed_append, List.takeWhile_append_dropWhile, whole]
    · rw [List.head?_takeWhile]
      intro zero
      exact h.1 (Option.filter_eq_some_iff.mp zero).1
  · rintro ⟨negative, digits, rest, rfl, digit, head, long⟩
    obtain ⟨c, digits, rfl⟩ := List.exists_cons_of_length_pos (Nat.zero_lt_of_lt long)
    have minus : (c :: digits ++ rest).head? ≠ some '-' := by
      intro minus
      have first := digit c List.mem_cons_self
      rw [Option.some.inj minus] at first
      exact absurd first (by decide)
    rw [signed_append, startsTooLong_signed negative minus, Bool.and_eq_true, bne_iff_ne,
      decide_eq_true_eq, List.takeWhile_append_of_pos digit, List.length_append]
    exact ⟨head, Nat.lt_add_right _ long⟩

theorem plainInteger?_eq_some_iff {s : List Char} {n : Int} :
    plainInteger? s = some n ↔
      ∃ negative digits, signed negative digits = s ∧ IsPlain digits ∧
        signedValue negative digits = n := by
  constructor
  · intro h
    refine ⟨(splitMinus s).1, (splitMinus s).2, signed_splitMinus s, ?_⟩
    simp only [plainInteger?, Option.ite_none_left_eq_some] at h
    generalize splitMinus s = parts at h ⊢
    obtain ⟨negative, digits⟩ := parts
    obtain ⟨filled, leads, few, value⟩ := h
    simp only [Bool.or_eq_true, List.isEmpty_iff, Bool.not_eq_true', not_or, Bool.not_eq_false,
      List.all_eq_true] at filled
    refine ⟨⟨filled.1, filled.2, fun head => ?_, Nat.not_lt.mp few⟩, Option.some.inj value⟩
    match digits, head with
    | [_], rfl => rfl
    | _ :: _ :: _, rfl => simp at leads
  · rintro ⟨negative, digits, rfl, plain, rfl⟩
    have split := splitMinus_signed negative plain.head_ne_minus
    have digit : digits.all Char.isDigit = true := List.all_eq_true.mpr plain.isDigit
    have leads : ¬ (1 < digits.length ∧ digits.head? = some '0') := by
      rintro ⟨long, head⟩
      rw [plain.lone_zero head] at long
      exact absurd long (by decide)
    simp [plainInteger?, split, plain.ne_nil, digit, leads, Nat.not_lt.mpr plain.few, signedValue]

end Minus

section Groups

theorem joinGroups?_eq_some_iff {s joined : List Char} :
    joinGroups? s = some joined ↔
      ∃ groups, ['_'].intercalate groups = s ∧ (∀ group ∈ groups, group ≠ [] ∧ '_' ∉ group) ∧
        groups ≠ [] ∧ groups.flatten = joined := by
  constructor
  · intro h
    simp only [joinGroups?, Option.ite_none_right_eq_some, List.all_eq_true, Bool.not_eq_true',
      List.isEmpty_eq_false_iff, Option.some.injEq] at h
    refine ⟨s.splitOn '_', List.intercalate_splitOn _, fun group mem => ⟨h.1 group mem, ?_⟩,
      List.splitOn_ne_nil _ _, h.2⟩
    exact fun under => (Text.ne_and_mem_of_mem_splitOn mem under).1 rfl
  · rintro ⟨groups, rfl, grouped, ne, rfl⟩
    have split := List.splitOn_intercalate '_' (fun group mem => (grouped group mem).2) ne
    simp only [joinGroups?, split, Option.ite_none_right_eq_some, List.all_eq_true,
      Bool.not_eq_true', List.isEmpty_eq_false_iff, and_true]
    exact fun group mem => (grouped group mem).1

section Intercalate

variable {groups : List (List Char)} (filled : ∀ group ∈ groups, group ≠ [])

include filled

theorem head?_intercalate : (['_'].intercalate groups).head? = groups.flatten.head? := by
  cases groups with
  | nil => rfl
  | cons group groups =>
    obtain ⟨c, group, rfl⟩ := List.exists_cons_of_ne_nil (filled group List.mem_cons_self)
    rw [List.intercalate_cons_cons_left]
    rfl

theorem getLast?_intercalate : (['_'].intercalate groups).getLast? = groups.flatten.getLast? := by
  induction groups with
  | nil => rfl
  | cons group groups ih =>
    cases groups with
    | nil => simp
    | cons next groups =>
      have later := ih fun g hg => filled g (List.mem_cons_of_mem group hg)
      have ne : (next :: groups).flatten ≠ [] := by
        simp [filled next (List.mem_cons_of_mem group List.mem_cons_self)]
      rw [List.intercalate_cons_cons, List.flatten_cons, List.getLast?_append_of_ne_nil group ne,
        List.getLast?_append, later, List.getLast?_eq_some_getLast ne, Option.some_or]

end Intercalate

theorem mem_intercalate {c : Char} {groups : List (List Char)}
    (h : c ∈ ['_'].intercalate groups) : c = '_' ∨ c ∈ groups.flatten := by
  induction groups with
  | nil => exact absurd h List.not_mem_nil
  | cons group groups ih =>
    cases groups with
    | nil => exact Or.inr (by simpa using h)
    | cons next groups =>
      rw [List.intercalate_cons_cons] at h
      rw [List.flatten_cons, List.mem_append]
      rcases List.mem_append.mp h with front | later
      · rcases List.mem_append.mp front with own | under
        · exact Or.inr (Or.inl own)
        · exact Or.inl (List.mem_singleton.mp under)
      · exact (ih later).imp_right Or.inr

theorem intercalate_cons (group : List Char) (groups : List (List Char)) :
    ∃ later, ['_'].intercalate (group :: groups) = group ++ later ∧ ∀ c ∈ later.head?, c = '_' := by
  cases groups with
  | nil => exact ⟨[], by simp, nofun⟩
  | cons next groups =>
    refine ⟨'_' :: ['_'].intercalate (next :: groups), ?_, fun c hc => (Option.some.inj hc).symm⟩
    rw [List.intercalate_cons_cons, List.append_assoc]
    rfl

end Groups

section Fraction

/-- A point and its zeros, or nothing at all. -/
def fraction (zeros : Nat) : List Char :=
  if zeros = 0 then [] else '.' :: List.replicate zeros '0'

theorem exists_dropFraction (s : List Char) : ∃ zeros, dropFraction s ++ fraction zeros = s := by
  have whole := List.takeWhile_append_dropWhile (p := (· != '.')) (l := s)
  have stops := List.head?_dropWhile_not (· != '.') s
  unfold dropFraction
  split
  · rename_i point zeros eq
    rw [eq] at whole stops
    split_ifs with all
    · simp only [Bool.and_eq_true, Bool.not_eq_true', List.isEmpty_eq_false_iff, List.all_eq_true,
        beq_iff_eq] at all
      have only := List.eq_replicate_of_mem all.2
      simp only [List.head?_cons, bne_eq_false_iff_eq] at stops
      subst stops
      refine ⟨zeros.length, ?_⟩
      rw [fraction, if_neg (by simpa using all.1), ← only]
      exact whole
    · exact ⟨0, List.append_nil s⟩
  · exact ⟨0, List.append_nil s⟩

theorem dropFraction_append {s : List Char} (h : '.' ∉ s) (zeros : Nat) :
    dropFraction (s ++ fraction zeros) = s := by
  have inside : ∀ c ∈ s, (c != '.') = true := by
    intro c hc
    exact bne_iff_ne.mpr fun point => h (point ▸ hc)
  unfold dropFraction
  rw [List.dropWhile_append_of_pos inside, List.takeWhile_append_of_pos inside]
  cases zeros with
  | zero => exact List.append_nil s
  | succ zeros => simp [fraction, List.replicate_succ]

end Fraction

end DiceRoller.Settings
