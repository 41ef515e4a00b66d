import DiceRoller.Proofs.Settings.NumeralFronts

/-!
# Spelled integers

An integer that is put together from well-formed parts is read as the integer that it spells
(`Spelling.readInteger_text`).
-/

namespace DiceRoller.Settings

/-- An integer taken apart as it is written. -/
structure Spelling where
  before : List Char
  mark : Mark
  lead : List Char
  groups : List (List Char)
  /-- Whether a minus comes right before the digits, as it may after leading zeros. -/
  inner : Bool
  digits : List Char
  /-- How many zeros come after the point. -/
  zeros : Nat
  after : List Char
  space : ∀ c ∈ before ++ after, isSpace c = true
  isLead : IsLead lead
  inner_after : inner = true → lead ≠ [] ∧ mark ≠ .minus
  plain : IsPlain digits
  grouped : ∀ group ∈ groups, group ≠ [] ∧ '_' ∉ group
  flatten : groups.flatten = signed inner digits

namespace Spelling

variable (s : Spelling)

/-- The digits with the underscores between them. -/
def numeral : List Char := ['_'].intercalate s.groups

def unsigned : List Char := s.lead ++ (s.numeral ++ fraction s.zeros)

def text : List Char := s.before ++ (s.mark.chars ++ s.unsigned) ++ s.after

def negative : Bool := decide (s.mark = .minus) || s.inner

def value : Int := signedValue s.negative s.digits

theorem filled : ∀ group ∈ s.groups, group ≠ [] := fun group h => (s.grouped group h).1

theorem inner_of_no_lead (h : s.lead = []) : s.inner = false :=
  Bool.eq_false_iff.mpr fun inner => (s.inner_after inner).1 h

theorem exists_head_digits : ∃ c, s.digits.head? = some c ∧ c.isDigit = true := by
  obtain ⟨c, rest, eq⟩ := List.exists_cons_of_ne_nil s.plain.ne_nil
  exact ⟨c, by rw [eq, List.head?_cons], s.plain.isDigit c (eq ▸ List.mem_cons_self)⟩

theorem exists_getLast_digits : ∃ c, s.digits.getLast? = some c ∧ c.isDigit = true :=
  ⟨_, List.getLast?_eq_some_getLast s.plain.ne_nil, s.plain.isDigit _ (List.getLast_mem _)⟩

theorem groups_ne_nil : s.groups ≠ [] := by
  intro none
  have flat := s.flatten
  rw [none, List.flatten_nil] at flat
  cases inner : s.inner with
  | true => simp [inner, signed] at flat
  | false => exact s.plain.ne_nil (by simpa [inner, signed] using flat.symm)

theorem head?_numeral : s.numeral.head? = (signed s.inner s.digits).head? := by
  rw [numeral, head?_intercalate s.filled, s.flatten]

theorem getLast?_numeral : s.numeral.getLast? = s.digits.getLast? := by
  rw [numeral, getLast?_intercalate s.filled, s.flatten, signed]
  split
  · rw [List.getLast?_cons, List.getLast?_eq_some_getLast s.plain.ne_nil]
    rfl
  · rfl

theorem point_not_mem_numeral : '.' ∉ s.numeral := by
  intro mem
  rcases mem_intercalate mem with under | inside
  · exact absurd under (by decide)
  · rw [s.flatten, signed] at inside
    have digits := s.plain.not_mem (c := '.') (by decide)
    split at inside
    · exact digits ((List.mem_cons.mp inside).resolve_left (by decide))
    · exact digits inside

theorem numeral_ne_nil : s.numeral ≠ [] := by
  obtain ⟨c, last, -⟩ := s.exists_getLast_digits
  intro none
  have same := s.getLast?_numeral
  rw [none, last] at same
  cases same

theorem exists_head_unsigned : ∃ c, s.unsigned.head? = some c ∧ c.isDigit = true := by
  by_cases ne : s.lead = []
  · have alone := s.inner_of_no_lead ne
    obtain ⟨c, head, digit⟩ := s.exists_head_digits
    refine ⟨c, ?_, digit⟩
    rw [unsigned, ne, List.nil_append, List.head?_append_of_ne_nil _ s.numeral_ne_nil,
      s.head?_numeral, alone]
    exact head
  · refine ⟨'0', ?_, by decide⟩
    rw [unsigned, List.head?_append_of_ne_nil _ ne, s.isLead.head_eq ne]

theorem exists_getLast_unsigned : ∃ c, s.unsigned.getLast? = some c ∧ c.isDigit = true := by
  by_cases whole : s.zeros = 0
  · obtain ⟨c, last, digit⟩ := s.exists_getLast_digits
    refine ⟨c, ?_, digit⟩
    rw [unsigned, fraction, if_pos whole, List.append_nil,
      List.getLast?_append_of_ne_nil _ s.numeral_ne_nil, s.getLast?_numeral, last]
  · refine ⟨'0', ?_, by decide⟩
    simp [unsigned, fraction, whole, List.getLast?_append, List.getLast?_cons,
      List.getLast?_replicate]

theorem numeral_of_zero (alone : s.inner = false) (zero : s.digits = ['0']) :
    s.numeral = ['0'] := by
  obtain ⟨group, groups, eq⟩ := List.exists_cons_of_ne_nil s.groups_ne_nil
  have flat := s.flatten
  have filled := s.filled
  rw [eq] at filled
  rw [eq, alone, zero, List.flatten_cons] at flat
  rcases List.append_eq_singleton_iff.mp flat with ⟨none, -⟩ | ⟨single, none⟩
  · exact absurd none (filled group List.mem_cons_self)
  · have last : groups = [] := by
      refine List.eq_nil_iff_forall_not_mem.mpr fun later mem => ?_
      have empty := List.flatten_eq_nil_iff.mp none later mem
      exact filled later (List.mem_cons_of_mem group mem) empty
    rw [numeral, eq, last, single, List.intercalate_singleton]

theorem dropZeros?_unsigned :
    dropZeros? s.unsigned = some (s.numeral ++ fraction s.zeros) := by
  have head := s.head?_numeral
  cases inner : s.inner with
  | true =>
    rw [inner] at head
    obtain ⟨rest, eq⟩ := List.head?_eq_some_iff.mp head
    rw [unsigned, eq]
    exact dropZeros?_append_cons s.isLead _ rfl (Or.inr ⟨rfl, (s.inner_after inner).1⟩)
  | false =>
    obtain ⟨c, first, digit⟩ := s.exists_head_digits
    by_cases zero : c = '0'
    · rw [zero] at first
      rw [unsigned, s.numeral_of_zero inner (s.plain.lone_zero first)]
      exact dropZeros?_append_zero s.isLead s.zeros
    · rw [inner] at head
      obtain ⟨rest, eq⟩ := List.head?_eq_some_iff.mp (head.trans first)
      have other : isZeroPart c = false := by
        rw [isZeroPart, Bool.or_eq_false_iff, beq_eq_false_iff_ne, beq_eq_false_iff_ne]
        refine ⟨zero, fun under => ?_⟩
        rw [under] at digit
        exact absurd digit (by decide)
      rw [unsigned, eq]
      exact dropZeros?_append_cons s.isLead _ other (Or.inl digit)

theorem joinGroups?_numeral : joinGroups? s.numeral = some (signed s.inner s.digits) :=
  joinGroups?_eq_some_iff.mpr ⟨s.groups, rfl, s.grouped, s.groups_ne_nil, s.flatten⟩

theorem trimSpace_text : trimSpace s.text = s.mark.chars ++ s.unsigned := by
  obtain ⟨c, head, first⟩ := s.exists_head_unsigned
  obtain ⟨d, last, final⟩ := s.exists_getLast_unsigned
  have ne : s.unsigned ≠ [] := by
    intro none
    rw [none] at head
    cases head
  refine trimSpace_append s.space (by simp [ne]) ?_ ?_
  · intro x hx
    rw [List.head?_append, head] at hx
    cases mark : s.mark with
    | none =>
      rw [mark] at hx
      obtain rfl := Option.some.inj hx
      exact isSpace_of_isDigit first
    | plus =>
      rw [mark] at hx
      obtain rfl := Option.some.inj hx
      exact isSpace_eq_false (by decide)
    | minus =>
      rw [mark] at hx
      obtain rfl := Option.some.inj hx
      exact isSpace_eq_false (by decide)
  · intro x hx
    rw [List.getLast?_append_of_ne_nil _ ne, last] at hx
    obtain rfl := Option.some.inj hx
    exact isSpace_of_isDigit final

theorem plainForm?_text : plainForm? s.text = some (signed s.negative s.digits) := by
  obtain ⟨c, head, digit⟩ := s.exists_head_unsigned
  have point := s.point_not_mem_numeral
  simp only [plainForm?, s.trimSpace_text, splitSign_append s.mark head digit,
    s.dropZeros?_unsigned, Option.bind_some, dropFraction_append point, s.joinGroups?_numeral,
    Option.map_some, negative]
  by_cases minus : s.mark = .minus
  · have alone : s.inner = false := Bool.eq_false_iff.mpr fun inner => (s.inner_after inner).2 minus
    simp [minus, alone, signed]
  · simp [minus]

theorem digit_of_mem_group (alone : s.inner = false) {group : List Char} (h : group ∈ s.groups) :
    ∀ c ∈ group, c.isDigit = true := by
  intro c hc
  have mem := List.mem_flatten_of_mem h hc
  rw [s.flatten, alone] at mem
  exact s.plain.isDigit c mem

/-- Without leading zeros the text has no more digits in front than its first group. -/
theorem length_run_le (none : s.lead = []) :
    ((s.unsigned ++ s.after).takeWhile Char.isDigit).length ≤ Numeral.maxDigits := by
  have alone := s.inner_of_no_lead none
  obtain ⟨group, groups, eq⟩ := List.exists_cons_of_ne_nil s.groups_ne_nil
  obtain ⟨later, numeral, under⟩ := intercalate_cons group groups
  have digits : ∀ c ∈ group, c.isDigit = true :=
    s.digit_of_mem_group alone (eq ▸ List.mem_cons_self)
  have text : s.unsigned ++ s.after = group ++ (later ++ (fraction s.zeros ++ s.after)) := by
    simp only [unsigned, Spelling.numeral, none, eq, numeral, List.nil_append, List.append_assoc]
  have stops : ∀ c ∈ (later ++ (fraction s.zeros ++ s.after)).head?, c.isDigit = false := by
    intro c hc
    rw [List.head?_append] at hc
    rcases Option.or_eq_some_iff.mp hc with own | ⟨-, next⟩
    · rw [under c own]
      decide
    · unfold fraction at next
      split at next
      · exact isDigit_of_isSpace (s.space c (List.mem_append_right _ (List.mem_of_head? next)))
      · obtain rfl := Option.some.inj next
        decide
  have flat := congrArg List.length s.flatten
  rw [alone, eq, List.flatten_cons, List.length_append, signed] at flat
  rw [text, Text.takeWhile_append_of_stops digits stops]
  have few := s.plain.few
  simp only [Bool.false_eq_true, if_false] at flat
  omega

theorem startsTooLong_text : startsTooLong s.text = false := by
  have short : ((s.unsigned ++ s.after).head? != some '0' && decide (Numeral.maxDigits <
      ((s.unsigned ++ s.after).takeWhile Char.isDigit).length)) = false := by
    rw [Bool.and_eq_false_iff, decide_eq_false_iff_not, Nat.not_lt]
    by_cases none : s.lead = []
    · exact Or.inr (s.length_run_le none)
    · left
      rw [unsigned, List.append_assoc, List.head?_append, s.isLead.head_eq none]
      rfl
  obtain ⟨c, head, digit⟩ := s.exists_head_unsigned
  have unsigned : (s.unsigned ++ s.after).head? ≠ some '-' := by
    rw [List.head?_append, head]
    intro minus
    rw [Option.some.inj minus] at digit
    exact absurd digit (by decide)
  unfold text
  cases before : s.before with
  | cons first before =>
    have space := s.space first (by simp [before])
    refine startsTooLong_cons _ (fun minus => ?_) (isDigit_of_isSpace space)
    rw [minus, isSpace_eq_false (by decide)] at space
    cases space
  | nil =>
    rw [List.nil_append, List.append_assoc]
    cases s.mark with
    | none => exact (startsTooLong_signed false unsigned).trans short
    | minus => exact (startsTooLong_signed true unsigned).trans short
    | plus => exact startsTooLong_cons _ (by decide) (by decide)

theorem readInteger_text : readInteger s.text = .ok s.value := by
  have plain := plainInteger?_eq_some_iff.mpr ⟨s.negative, s.digits, rfl, s.plain, rfl⟩
  simp only [readInteger, s.startsTooLong_text, s.plainForm?_text, Option.bind_some, plain,
    Bool.false_eq_true, if_false, value]

end Spelling

end DiceRoller.Settings
