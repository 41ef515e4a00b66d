import DiceRoller.Expression.Draft
import DiceRoller.Numeral
import Mathlib.Data.List.Basic
import Mathlib.Logic.Function.Basic

/-!
# The grammar of expressions

A phrase is a derivation of the grammar

    expression := digits? d (digits | f) modifier? constant?

where a modifier is a keyword and digits, and a constant is a sign and digits. A phrase has a
text and denotes an expression. No text has two phrases (`Phrase.chars_injective`), so that a
text denotes one expression at most.
-/

namespace DiceRoller.Expression

/-- One or more of the digits 0 to 9. -/
structure Digits where
  chars : List Char
  ne_nil : chars ≠ []
  isDigit : ∀ c ∈ chars, c.isDigit = true

namespace Digits

def value (digits : Digits) : Nat := Numeral.value digits.chars

theorem chars_injective : Function.Injective chars := by
  rintro ⟨a, _, _⟩ ⟨b, _, _⟩ h
  cases h
  rfl

theorem exists_eq_cons (digits : Digits) :
    ∃ c s, digits.chars = c :: s ∧ c.isDigit = true := by
  obtain ⟨c, s, h⟩ := List.exists_cons_of_ne_nil digits.ne_nil
  exact ⟨c, s, h, digits.isDigit c (h ▸ List.mem_cons_self)⟩

end Digits

/-- The keywords as they are spelled. -/
inductive Spelling
  | kh
  | k
  | kl
  | dh
  | d
  | dl
  | v
  | ev
  | rv
  deriving DecidableEq, Repr

namespace Spelling

def chars : Spelling → List Char
  | kh => ['k', 'h']
  | k => ['k']
  | kl => ['k', 'l']
  | dh => ['d', 'h']
  | d => ['d']
  | dl => ['d', 'l']
  | v => ['v']
  | ev => ['e', 'v']
  | rv => ['r', 'v']

def keyword : Spelling → Keyword
  | kh | k => .select .keepHighest
  | kl => .select .keepLowest
  | dh => .select .dropHighest
  | d | dl => .select .dropLowest
  | v => .count .versus
  | ev => .count .exploding
  | rv => .count .reroll

theorem chars_injective : Function.Injective chars := by
  intro a b h
  cases a <;> cases b <;> first | rfl | simp [chars] at h

theorem isDigit_of_mem_chars {s : Spelling} {c : Char} (h : c ∈ s.chars) :
    c.isDigit = false := by
  have letters : s.chars.all (!·.isDigit) = true := by cases s <;> rfl
  simpa using List.all_eq_true.mp letters c h

end Spelling

/-- A keyword and its number. -/
structure Pair where
  spelling : Spelling
  digits : Digits

namespace Pair

def chars (pair : Pair) : List Char := pair.spelling.chars ++ pair.digits.chars

/-- What the keyword and the number make of a pool. -/
def modifier (pair : Pair) : Modifier :=
  match pair.spelling.keyword with
  | .select rule => .select rule pair.digits.value
  | .count rule => .count rule pair.digits.value

end Pair

inductive Sign
  | plus
  | minus
  deriving DecidableEq, Repr

namespace Sign

def char : Sign → Char
  | plus => '+'
  | minus => '-'

def apply (n : Int) : Sign → Int
  | plus => n
  | minus => -n

theorem char_injective : Function.Injective char := by
  intro a b h
  cases a <;> cases b <;> first | rfl | simp [char] at h

theorem isDigit_char (sign : Sign) : sign.char.isDigit = false := by
  cases sign <;> decide

end Sign

structure Phrase where
  count : Option Digits
  /-- None for a Fate die. -/
  sides : Option Digits
  modifier : Option Pair
  constant : Option (Sign × Digits)

namespace Phrase

def countChars (p : Phrase) : List Char := p.count.elim [] Digits.chars

def sidesChars (p : Phrase) : List Char := p.sides.elim ['f'] Digits.chars

def modifierChars (p : Phrase) : List Char := p.modifier.elim [] Pair.chars

def constantChars (p : Phrase) : List Char :=
  p.constant.elim [] fun c => c.1.char :: c.2.chars

def chars (p : Phrase) : List Char :=
  p.countChars ++ 'd' :: (p.sidesChars ++ (p.modifierChars ++ p.constantChars))

/-- The expression whose numbers are the decimal values of the digits. -/
def expression (p : Phrase) : Expression where
  count := p.count.elim 1 fun digits => digits.value
  die := p.sides.elim .fate fun digits => .numbered digits.value
  modifier := p.modifier.map Pair.modifier
  constant := p.constant.map fun c => c.1.apply c.2.value

end Phrase

/-- The text does not go on with a digit. -/
def EndsDigits (s : List Char) : Prop := ∀ c ∈ s.head?, c.isDigit = false

theorem endsDigits_nil : EndsDigits [] := by simp [EndsDigits]

theorem endsDigits_cons {c : Char} {s : List Char} (h : c.isDigit = false) :
    EndsDigits (c :: s) := by
  intro x hx
  rw [List.head?_cons, Option.mem_some_iff] at hx
  exact hx ▸ h

theorem Pair.endsDigits (pair : Pair) (s : List Char) : EndsDigits (pair.chars ++ s) := by
  obtain ⟨spelling, digits⟩ := pair
  cases spelling <;> exact endsDigits_cons rfl

namespace Phrase

theorem endsDigits_constantChars (p : Phrase) : EndsDigits p.constantChars := by
  unfold constantChars
  cases p.constant with
  | none => exact endsDigits_nil
  | some c => exact endsDigits_cons c.1.isDigit_char

theorem endsDigits_modifierChars (p : Phrase) :
    EndsDigits (p.modifierChars ++ p.constantChars) := by
  unfold modifierChars
  cases p.modifier with
  | none => exact p.endsDigits_constantChars
  | some pair => exact pair.endsDigits _

end Phrase

/-- A text falls in one way only into characters of a kind and a rest that does not go on with
one of them. -/
theorem run_append_inj {kind : Char → Bool} {r₁ r₂ s₁ s₂ : List Char}
    (h₁ : ∀ c ∈ r₁, kind c = true) (h₂ : ∀ c ∈ r₂, kind c = true)
    (e₁ : ∀ c ∈ s₁.head?, kind c = false) (e₂ : ∀ c ∈ s₂.head?, kind c = false)
    (h : r₁ ++ s₁ = r₂ ++ s₂) : r₁ = r₂ ∧ s₁ = s₂ := by
  induction r₁ generalizing r₂ with
  | nil =>
    cases r₂ with
    | nil => exact ⟨rfl, h⟩
    | cons c r₂ =>
      have hc := e₁ c (by rw [List.nil_append] at h; simp [h])
      rw [h₂ c List.mem_cons_self] at hc
      contradiction
  | cons c r₁ ih =>
    cases r₂ with
    | nil =>
      have hc := e₂ c (by rw [List.nil_append] at h; simp [← h])
      rw [h₁ c List.mem_cons_self] at hc
      contradiction
    | cons d r₂ =>
      rw [List.cons_append, List.cons_append, List.cons.injEq] at h
      obtain ⟨rfl, h⟩ := h
      obtain ⟨rfl, rfl⟩ := ih (fun x hx => h₁ x (List.mem_cons_of_mem _ hx))
        (fun x hx => h₂ x (List.mem_cons_of_mem _ hx)) h
      exact ⟨rfl, rfl⟩

theorem Pair.chars_append_inj {a b : Pair} {s t : List Char} (hs : EndsDigits s)
    (ht : EndsDigits t) (h : a.chars ++ s = b.chars ++ t) : a = b ∧ s = t := by
  have letters (p : Pair) : ∀ c ∈ p.spelling.chars, (!c.isDigit) = true := by
    intro c hc
    rw [Spelling.isDigit_of_mem_chars hc, Bool.not_false]
  have digit (p : Pair) (u : List Char) : ∀ c ∈ (p.digits.chars ++ u).head?,
      (!c.isDigit) = false := by
    obtain ⟨x, r, hx, isDigit⟩ := p.digits.exists_eq_cons
    simp [hx, isDigit]
  simp only [chars, List.append_assoc] at h
  obtain ⟨spelled, h⟩ := run_append_inj (letters a) (letters b) (digit a s) (digit b t) h
  obtain ⟨run, rest⟩ := run_append_inj a.digits.isDigit b.digits.isDigit hs ht h
  obtain ⟨spelling, digits⟩ := a
  cases Spelling.chars_injective spelled
  cases Digits.chars_injective run
  exact ⟨rfl, rest⟩

namespace Phrase

theorem isDigit_of_mem_countChars {p : Phrase} {c : Char} (h : c ∈ p.countChars) :
    c.isDigit = true := by
  unfold countChars at h
  cases hp : p.count with
  | none => simp [hp] at h
  | some digits => exact digits.isDigit c (by simpa [hp] using h)

theorem count_eq_of_countChars_eq {p q : Phrase} (h : p.countChars = q.countChars) :
    p.count = q.count := by
  unfold countChars at h
  cases hp : p.count with
  | none =>
    cases hq : q.count with
    | none => rfl
    | some b => exact absurd (by simpa [hp, hq] using h.symm) b.ne_nil
  | some a =>
    cases hq : q.count with
    | none => exact absurd (by simpa [hp, hq] using h) a.ne_nil
    | some b =>
      have h : a.chars = b.chars := by simpa [hp, hq] using h
      rw [Digits.chars_injective h]

theorem sidesChars_append_inj {p q : Phrase} {s t : List Char} (hs : EndsDigits s)
    (ht : EndsDigits t) (h : p.sidesChars ++ s = q.sidesChars ++ t) :
    p.sides = q.sides ∧ s = t := by
  have noF (digits : Digits) (u v : List Char) : digits.chars ++ u ≠ 'f' :: v := by
    obtain ⟨c, r, hc, isDigit⟩ := digits.exists_eq_cons
    rw [hc, List.cons_append, ne_eq, List.cons.injEq]
    rintro ⟨rfl, -⟩
    exact absurd isDigit (by decide)
  unfold sidesChars at h
  cases hp : p.sides with
  | none =>
    cases hq : q.sides with
    | none => exact ⟨rfl, by simpa [hp, hq] using h⟩
    | some b => exact absurd (by simpa [hp, hq] using h.symm) (noF b t s)
  | some a =>
    cases hq : q.sides with
    | none => exact absurd (by simpa [hp, hq] using h) (noF a s t)
    | some b =>
      simp only [hp, hq, Option.elim_some] at h
      obtain ⟨run, rest⟩ := run_append_inj a.isDigit b.isDigit hs ht h
      exact ⟨congrArg some (Digits.chars_injective run), rest⟩

theorem constant_eq_of_constantChars_eq {p q : Phrase} (h : p.constantChars = q.constantChars) :
    p.constant = q.constant := by
  unfold constantChars at h
  cases hp : p.constant with
  | none =>
    cases hq : q.constant with
    | none => rfl
    | some b => simp [hp, hq] at h
  | some a =>
    cases hq : q.constant with
    | none => simp [hp, hq] at h
    | some b =>
      simp only [hp, hq, Option.elim_some, List.cons.injEq] at h
      exact congrArg some (Prod.ext (Sign.char_injective h.1) (Digits.chars_injective h.2))

theorem constantChars_ne_pair (p : Phrase) (pair : Pair) (s : List Char) :
    p.constantChars ≠ pair.chars ++ s := by
  obtain ⟨spelling, digits⟩ := pair
  unfold constantChars
  cases p.constant with
  | none => cases spelling <;> simp [Pair.chars, Spelling.chars]
  | some c =>
    obtain ⟨sign, _⟩ := c
    cases sign <;> cases spelling <;> simp [Pair.chars, Spelling.chars, Sign.char]

theorem modifierChars_append_inj {p q : Phrase}
    (h : p.modifierChars ++ p.constantChars = q.modifierChars ++ q.constantChars) :
    p.modifier = q.modifier ∧ p.constantChars = q.constantChars := by
  unfold modifierChars at h
  cases hp : p.modifier with
  | none =>
    cases hq : q.modifier with
    | none => exact ⟨rfl, by simpa [hp, hq] using h⟩
    | some b => exact absurd (by simpa [hp, hq] using h) (p.constantChars_ne_pair b _)
  | some a =>
    cases hq : q.modifier with
    | none => exact absurd (by simpa [hp, hq] using h.symm) (q.constantChars_ne_pair a _)
    | some b =>
      simp only [hp, hq, Option.elim_some] at h
      obtain ⟨pair, rest⟩ := Pair.chars_append_inj p.endsDigits_constantChars
        q.endsDigits_constantChars h
      exact ⟨congrArg some pair, rest⟩

/-- The grammar is unambiguous. -/
theorem chars_injective : Function.Injective chars := by
  intro p q h
  have ends (s : List Char) : EndsDigits ('d' :: s) := endsDigits_cons rfl
  obtain ⟨counts, h⟩ := run_append_inj (fun _ => p.isDigit_of_mem_countChars)
    (fun _ => q.isDigit_of_mem_countChars) (ends _) (ends _) h
  rw [List.cons.injEq] at h
  obtain ⟨sides, h⟩ := sidesChars_append_inj p.endsDigits_modifierChars
    q.endsDigits_modifierChars h.2
  obtain ⟨modifiers, h⟩ := modifierChars_append_inj h
  have constants := constant_eq_of_constantChars_eq h
  have counts := count_eq_of_countChars_eq counts
  obtain ⟨count, sides', modifier, constant⟩ := p
  simp_all only

end Phrase

end DiceRoller.Expression
