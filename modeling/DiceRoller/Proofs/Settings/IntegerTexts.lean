import DiceRoller.Proofs.Numeral
import DiceRoller.Proofs.Settings.Integers

/-!
# Integers as they are documented

What is promised of a text of a limit: an integer that is written with a sign or none, digits with
single underscores between them, a point with zeros after it or none, and space around it, is read
as what it says; a text with other characters, or without a digit, is no integer. This says less
than how integers are read, which also takes some texts of neither kind (`Spelling`).
-/

namespace DiceRoller.Settings

/-- An integer as it is documented. -/
structure IntegerText where
  before : List Char
  mark : Mark
  /-- The digits that the underscores keep apart. -/
  groups : List (List Char)
  /-- How many zeros come after the point. -/
  zeros : Nat
  after : List Char
  space : ∀ c ∈ before ++ after, isSpace c = true
  ne_nil : groups ≠ []
  filled : ∀ group ∈ groups, group ≠ []
  digits : ∀ group ∈ groups, ∀ c ∈ group, c.isDigit = true
  /-- Leading zeros after a minus are left out: it is not documented what they mean. -/
  unpadded : mark = .minus → groups.flatten.head? ≠ some '0'

namespace IntegerText

variable (i : IntegerText)

def text : List Char :=
  i.before ++ (i.mark.chars ++ (['_'].intercalate i.groups ++ fraction i.zeros)) ++ i.after

def value : Int := signedValue (i.mark = .minus) i.groups.flatten

end IntegerText

/-- The characters that integers are written with. -/
def isNumeric (c : Char) : Bool :=
  c.isDigit || isSpace c || c == '+' || c == '-' || c == '_' || c == '.'

/-- What is documented of reading a text that is not too long as an integer. -/
inductive ReadsAs (text : List Char) : Except Misreading Int → Prop
  | integer (short : text.length ≤ Numeral.maxDigits) (i : IntegerText) (same : i.text = text) :
      ReadsAs text (.ok i.value)
  | foreign (short : text.length ≤ Numeral.maxDigits) {c : Char} (mem : c ∈ text)
      (other : isNumeric c = false) : ReadsAs text (.error .notInteger)
  | bare (short : text.length ≤ Numeral.maxDigits) (none : ∀ c ∈ text, c.isDigit = false) :
      ReadsAs text (.error .notInteger)

section Lead

theorem intercalate_append_cons (front group : List Char) (groups : List (List Char)) :
    ['_'].intercalate ((front ++ group) :: groups) =
      front ++ ['_'].intercalate (group :: groups) := by
  cases groups with
  | nil => simp
  | cons next groups => simp [List.intercalate_cons_cons]

theorem length_flatten_le (groups : List (List Char)) :
    groups.flatten.length ≤ (['_'].intercalate groups).length := by
  induction groups with
  | nil => exact Nat.le_refl _
  | cons group groups ih =>
    cases groups with
    | nil => simp
    | cons next groups =>
      rw [List.flatten_cons, List.intercalate_cons_cons, List.length_append, List.length_append,
        List.length_append]
      omega

theorem exists_zeros_append (s : List Char) :
    ∃ n rest, List.replicate n '0' ++ rest = s ∧ rest.head? ≠ some '0' := by
  induction s with
  | nil => exact ⟨0, [], rfl, nofun⟩
  | cons c s ih =>
    by_cases zero : c = '0'
    · obtain ⟨n, rest, same, other⟩ := ih
      refine ⟨n + 1, rest, ?_, other⟩
      rw [List.replicate_succ, List.cons_append, same, zero]
    · exact ⟨0, c :: s, rfl, fun head => zero (Option.some.inj head)⟩

theorem isLead_zeros (n : Nat) : IsLead (List.replicate n '0') where
  parts c hc := by
    rw [List.eq_of_mem_replicate hc]
    rfl
  head := by
    rw [List.head?_replicate]
    split <;> simp

/-- Groups of digits are leading zeros and later groups that spell a plain numeral. -/
structure Splits (groups : List (List Char)) (lead : List Char) (later : List (List Char)) :
    Prop where
  text : lead ++ ['_'].intercalate later = ['_'].intercalate groups
  isLead : IsLead lead
  filled : ∀ group ∈ later, group ≠ []
  digits : ∀ group ∈ later, ∀ c ∈ group, c.isDigit = true
  ne_nil : later.flatten ≠ []
  lone_zero : later.flatten.head? = some '0' → later.flatten = ['0']
  value : Numeral.value later.flatten = Numeral.value groups.flatten

namespace Splits

variable {groups later : List (List Char)} {lead : List Char}

/-- The leading zeros end before another digit of the first group. -/
theorem of_other {rest : List Char} (n : Nat) (ne : rest ≠ []) (other : rest.head? ≠ some '0')
    (filled : ∀ group ∈ groups, group ≠ [])
    (digits : ∀ group ∈ rest :: groups, ∀ c ∈ group, c.isDigit = true) :
    Splits ((List.replicate n '0' ++ rest) :: groups) (List.replicate n '0') (rest :: groups) where
  text := (intercalate_append_cons _ _ _).symm
  isLead := isLead_zeros n
  filled := List.forall_mem_cons.mpr ⟨ne, filled⟩
  digits := digits
  ne_nil := by simp [ne]
  lone_zero zero := by
    rw [List.flatten_cons, List.head?_append_of_ne_nil _ ne] at zero
    exact absurd zero other
  value := by
    rw [List.flatten_cons, List.flatten_cons, List.append_assoc, Numeral.value_zeros_append]

/-- The last of some zeros is the number. -/
theorem of_zeros (n : Nat) :
    Splits [List.replicate (n + 1) '0'] (List.replicate n '0') [['0']] where
  text := by
    rw [List.intercalate_singleton, List.intercalate_singleton, List.replicate_succ']
  isLead := isLead_zeros n
  filled := by simp
  digits := by simp
  ne_nil := by simp
  lone_zero _ := rfl
  value := by
    rw [List.flatten_singleton, List.flatten_singleton, List.replicate_succ',
      Numeral.value_zeros_append]

/-- A first group of zeros is passed over with the underscore after it. -/
theorem cons_zeros (h : Splits groups lead later) (ne : groups ≠ []) (n : Nat) :
    Splits (List.replicate (n + 1) '0' :: groups) (List.replicate (n + 1) '0' ++ '_' :: lead)
      later where
  text := by
    obtain ⟨next, groups, rfl⟩ := List.exists_cons_of_ne_nil ne
    rw [List.append_assoc, List.cons_append, h.text, List.intercalate_cons_cons, List.append_assoc]
    rfl
  isLead := {
    parts := by
      intro c hc
      rcases List.mem_append.mp hc with zero | under
      · exact (isLead_zeros _).parts c zero
      · rcases List.mem_cons.mp under with rfl | inner
        · rfl
        · exact h.isLead.parts c inner
    head := by simp [List.replicate_succ] }
  filled := h.filled
  digits := h.digits
  ne_nil := h.ne_nil
  lone_zero := h.lone_zero
  value := by rw [List.flatten_cons, Numeral.value_zeros_append, h.value]

end Splits

theorem exists_splits {groups : List (List Char)} (ne : groups ≠ [])
    (filled : ∀ group ∈ groups, group ≠ [])
    (digits : ∀ group ∈ groups, ∀ c ∈ group, c.isDigit = true) :
    ∃ lead later, Splits groups lead later := by
  induction groups with
  | nil => exact absurd rfl ne
  | cons group groups ih =>
    obtain ⟨filledFirst, filledOthers⟩ := List.forall_mem_cons.mp filled
    obtain ⟨digitsFirst, digitsOthers⟩ := List.forall_mem_cons.mp digits
    obtain ⟨n, rest, rfl, other⟩ := exists_zeros_append group
    by_cases zeros : rest = []
    · subst zeros
      rw [List.append_nil] at filledFirst ⊢
      obtain ⟨m, rfl⟩ := Nat.exists_eq_succ_of_ne_zero fun none : n = 0 =>
        filledFirst (by rw [none, List.replicate_zero])
      by_cases last : groups = []
      · subst last
        exact ⟨_, _, .of_zeros m⟩
      · obtain ⟨lead, later, splits⟩ := ih last filledOthers digitsOthers
        exact ⟨_, _, splits.cons_zeros last m⟩
    · have inside := fun c hc => digitsFirst c (List.mem_append_right _ hc)
      exact ⟨_, _, .of_other n zeros other filledOthers
        (List.forall_mem_cons.mpr ⟨inside, digitsOthers⟩)⟩

end Lead

namespace IntegerText

variable (i : IntegerText)

theorem exists_spelling (short : i.text.length ≤ Numeral.maxDigits) :
    ∃ spelling : Spelling, spelling.text = i.text ∧ spelling.value = i.value := by
  obtain ⟨lead, later, splits⟩ := exists_splits i.ne_nil i.filled i.digits
  have digits : ∀ c ∈ later.flatten, c.isDigit = true := by
    intro c hc
    obtain ⟨group, hgroup, mem⟩ := List.mem_flatten.mp hc
    exact splits.digits group hgroup c mem
  have few : later.flatten.length ≤ Numeral.maxDigits := by
    have flat := length_flatten_le later
    have length := congrArg List.length splits.text
    simp only [text, List.length_append] at short length
    omega
  have grouped : ∀ group ∈ later, group ≠ [] ∧ '_' ∉ group := fun group hgroup =>
    ⟨splits.filled group hgroup, fun under =>
      absurd (splits.digits group hgroup _ under) (by decide)⟩
  refine ⟨⟨i.before, i.mark, lead, later, false, later.flatten, i.zeros, i.after, i.space,
    splits.isLead, nofun, ⟨splits.ne_nil, digits, splits.lone_zero, few⟩, grouped, rfl⟩, ?_, ?_⟩
  · rw [Spelling.text, Spelling.unsigned, Spelling.numeral, ← List.append_assoc lead, splits.text,
      text]
  · rw [Spelling.value, Spelling.negative, Bool.or_false, IntegerText.value, signedValue,
      signedValue, splits.value]

end IntegerText

namespace Spelling

variable (s : Spelling)

theorem isNumeric_of_mem {c : Char} (h : c ∈ s.text) : isNumeric c = true := by
  have digit {c : Char} (hc : c.isDigit = true) : isNumeric c = true := by simp [isNumeric, hc]
  have space (hc : c ∈ s.before ++ s.after) : isNumeric c = true := by
    simp [isNumeric, s.space c hc]
  simp only [text, unsigned, numeral, List.mem_append] at h
  rcases h with (before | mark | lead | numeral | fraction) | after
  · exact space (List.mem_append_left _ before)
  · cases hmark : s.mark <;> simp_all [Mark.chars, isNumeric]
  · have part := s.isLead.parts c lead
    simp only [isZeroPart, Bool.or_eq_true, beq_iff_eq] at part
    rcases part with rfl | rfl <;> rfl
  · rcases mem_intercalate numeral with rfl | inside
    · rfl
    · rw [s.flatten, signed] at inside
      split at inside
      · rcases List.mem_cons.mp inside with rfl | inside
        · rfl
        · exact digit (s.plain.isDigit c inside)
      · exact digit (s.plain.isDigit c inside)
  · rw [Settings.fraction] at fraction
    split at fraction
    · exact absurd fraction List.not_mem_nil
    · rcases List.mem_cons.mp fraction with rfl | zero
      · rfl
      · rw [List.eq_of_mem_replicate zero]
        rfl
  · exact space (List.mem_append_right _ after)

theorem exists_digit : ∃ c ∈ s.text, c.isDigit = true := by
  obtain ⟨c, head, digit⟩ := s.exists_head_unsigned
  refine ⟨c, ?_, digit⟩
  rw [text, List.mem_append, List.mem_append, List.mem_append]
  exact Or.inl (Or.inr (Or.inr (List.mem_of_head? head)))

end Spelling

theorem length_lt_of_startsTooLong {text : List Char} (h : StartsTooLong text) :
    Numeral.maxDigits < text.length := by
  obtain ⟨negative, digits, rest, rfl, -, -, long⟩ := h
  rw [List.length_append]
  cases negative
  · exact Nat.lt_add_right _ long
  · exact Nat.lt_add_right _ (Nat.lt_succ_of_lt long)

theorem readInteger_eq_of_readsAs {text : List Char} {outcome : Except Misreading Int}
    (h : ReadsAs text outcome) : readInteger text = outcome := by
  have refused (short : text.length ≤ Numeral.maxDigits)
      (unspelled : ∀ spelling : Spelling, spelling.text ≠ text) :
      readInteger text = .error .notInteger :=
    readInteger_eq_notInteger_iff.mpr
      ⟨fun long => absurd (length_lt_of_startsTooLong long) (Nat.not_lt.mpr short), unspelled⟩
  cases h with
  | integer short i same =>
    subst same
    exact readInteger_eq_ok_iff.mpr (i.exists_spelling short)
  | foreign short mem other =>
    refine refused short fun spelling same => ?_
    rw [← same] at mem
    simp [spelling.isNumeric_of_mem mem] at other
  | bare short none =>
    refine refused short fun spelling same => ?_
    obtain ⟨c, mem, digit⟩ := spelling.exists_digit
    simp [none c (same ▸ mem)] at digit

end DiceRoller.Settings
