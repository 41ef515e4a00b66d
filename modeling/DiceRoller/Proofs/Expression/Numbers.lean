import DiceRoller.Proofs.Expression.Grammar
import DiceRoller.Proofs.Numeral

/-!
# The numbers of a phrase

Between two numbers of a phrase stands a character that is no digit. So the runs of digits in
its text are its numbers and their parts, and a bound on the one is a bound on the other.
-/

namespace DiceRoller.Expression

open Numeral (ShortRuns maxDigits)

/-- No run of digits reaches over the joint of two texts if the second starts with none. -/
theorem shortRuns_append {s t : List Char} (hs : ShortRuns s) (ht : ShortRuns t)
    (ends : EndsDigits t) : ShortRuns (s ++ t) := by
  intro run inside digits
  rcases List.infix_append_iff.mp inside with left | right | ⟨before, after, rfl, front, back⟩
  · exact hs run left digits
  · exact ht run right digits
  · cases after with
    | nil =>
      rw [List.append_nil] at digits ⊢
      exact hs before front.isInfix digits
    | cons c after =>
      obtain ⟨rest, rfl⟩ := back
      have digit := digits c (List.mem_append_right before List.mem_cons_self)
      rw [ends c rfl] at digit
      contradiction

theorem shortRuns_cons {c : Char} {s : List Char} (hc : c.isDigit = false) (hs : ShortRuns s) :
    ShortRuns (c :: s) := by
  intro run inside digits
  rcases List.infix_cons_iff.mp inside with start | later
  · cases run with
    | nil => exact Nat.zero_le _
    | cons d run =>
      have digit := digits d List.mem_cons_self
      rw [(List.cons_prefix_cons.mp start).1, hc] at digit
      contradiction
  · exact hs run later digits

theorem shortRuns_others_append {front s : List Char} (h : ∀ c ∈ front, c.isDigit = false)
    (hs : ShortRuns s) : ShortRuns (front ++ s) := by
  induction front with
  | nil => exact hs
  | cons c front ih =>
    exact shortRuns_cons (h c List.mem_cons_self) (ih fun x hx => h x (List.mem_cons_of_mem c hx))

theorem shortRuns_nil : ShortRuns [] := .of_length_le (Nat.zero_le _)

namespace Phrase

/-- The numbers of a phrase in the order of its text. -/
def numbers (p : Phrase) : List Digits :=
  p.count.toList ++ (p.sides.toList ++
    ((p.modifier.map Pair.digits).toList ++ (p.constant.map Prod.snd).toList))

section Members

variable {p : Phrase} {digits : Digits}

theorem mem_numbers_of_count (h : p.count = some digits) : digits ∈ p.numbers := by
  simp [numbers, h]

theorem mem_numbers_of_sides (h : p.sides = some digits) : digits ∈ p.numbers := by
  simp [numbers, h]

theorem mem_numbers_of_modifier {pair : Pair} (h : p.modifier = some pair) :
    pair.digits ∈ p.numbers := by
  simp [numbers, h]

theorem mem_numbers_of_constant {sign : Sign} (h : p.constant = some (sign, digits)) :
    digits ∈ p.numbers := by
  simp [numbers, h]

end Members

theorem infix_of_mem_numbers {p : Phrase} {digits : Digits} (h : digits ∈ p.numbers) :
    digits.chars <:+: p.chars := by
  have sides : p.sidesChars ++ (p.modifierChars ++ p.constantChars) <:+: p.chars :=
    ((List.suffix_cons 'd' _).trans (List.suffix_append p.countChars _)).isInfix
  have modifier : p.modifierChars ++ p.constantChars <:+: p.chars :=
    (List.suffix_append p.sidesChars _).isInfix.trans sides
  obtain ⟨count, sides', modifier', constant⟩ := p
  simp only [numbers, List.mem_append, Option.mem_toList, Option.map_eq_some_iff] at h
  rcases h with rfl | rfl | ⟨⟨spelling, run⟩, rfl, rfl⟩ | ⟨⟨sign, run⟩, rfl, rfl⟩
  · exact (List.prefix_append _ _).isInfix
  · exact (List.prefix_append _ _).isInfix.trans sides
  · have last := List.suffix_append spelling.chars run.chars
    exact last.isInfix.trans ((List.prefix_append _ _).isInfix.trans modifier)
  · have last := List.suffix_cons sign.char run.chars
    exact last.isInfix.trans ((List.suffix_append _ _).isInfix.trans modifier)

/-- The text of a phrase can be read through if each of its numbers can be read. -/
theorem shortRuns_chars {p : Phrase}
    (h : ∀ digits ∈ p.numbers, digits.chars.length ≤ maxDigits) : ShortRuns p.chars := by
  have each {digits : Digits} (hd : digits ∈ p.numbers) : ShortRuns digits.chars :=
    .of_length_le (h digits hd)
  have count : ShortRuns p.countChars := by
    unfold countChars
    cases hp : p.count with
    | none => exact shortRuns_nil
    | some digits => exact each (mem_numbers_of_count hp)
  have sides : ShortRuns p.sidesChars := by
    unfold sidesChars
    cases hp : p.sides with
    | none => exact shortRuns_cons (by decide) shortRuns_nil
    | some digits => exact each (mem_numbers_of_sides hp)
  have modifier : ShortRuns p.modifierChars := by
    unfold modifierChars
    cases hp : p.modifier with
    | none => exact shortRuns_nil
    | some pair =>
      exact shortRuns_others_append (fun _ => Spelling.isDigit_of_mem_chars)
        (each (mem_numbers_of_modifier hp))
  have constant : ShortRuns p.constantChars := by
    unfold constantChars
    cases hp : p.constant with
    | none => exact shortRuns_nil
    | some c => exact shortRuns_cons c.1.isDigit_char (each (mem_numbers_of_constant hp))
  have back := shortRuns_append modifier constant p.endsDigits_constantChars
  have middle := shortRuns_append sides back p.endsDigits_modifierChars
  exact shortRuns_append count (shortRuns_cons (by decide) middle) (endsDigits_cons (by decide))

end Phrase

end DiceRoller.Expression
