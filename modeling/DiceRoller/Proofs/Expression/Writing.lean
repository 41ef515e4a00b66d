import DiceRoller.Proofs.Expression.Acceptance
import DiceRoller.Proofs.Expression.Canonical
import DiceRoller.Proofs.Expression.Numbers

/-!
# Written expressions

Every expression within the bounds has a phrase, in which a style decides on leading zeros,
short keywords and a count of one. Any text that writes out this phrase, in whatever letter
case and with whatever blanks around it, is read as the expression (`read_written`).
-/

namespace DiceRoller.Expression

open Numeral (ShortRuns maxDigits)

/-- What an expression leaves open about its text. -/
structure Style where
  countZeros : Nat := 0
  sidesZeros : Nat := 0
  amountZeros : Nat := 0
  constantZeros : Nat := 0
  /-- A count of one is left out. -/
  omitsOne : Bool := false
  /-- A keyword that has a form of one letter is written in it. -/
  brief : Bool := false

/-- The decimal digits of a number behind some zeros. -/
def Digits.ofNat (zeros n : Nat) : Digits where
  chars := List.replicate zeros '0' ++ Nat.toDigits 10 n
  ne_nil := List.append_ne_nil_of_right_ne_nil _ Nat.toDigits_ne_nil
  isDigit := by
    intro c hc
    rcases List.mem_append.mp hc with zero | digit
    · rw [List.eq_of_mem_replicate zero]
      decide
    · exact Nat.isDigit_of_mem_toDigits (by decide) (by decide) digit

theorem Digits.value_ofNat (zeros n : Nat) : (ofNat zeros n).value = n := by
  rw [value, ofNat, Numeral.value_zeros_append, Numeral.value_toDigits]

namespace Spelling

def ofSelection (brief : Bool) : Selection → Spelling
  | .keepHighest => if brief then k else kh
  | .keepLowest => kl
  | .dropHighest => dh
  | .dropLowest => if brief then d else dl

def ofCounting : Counting → Spelling
  | .versus => v
  | .exploding => ev
  | .reroll => rv

theorem keyword_ofSelection (brief : Bool) (rule : Selection) :
    (ofSelection brief rule).keyword = .select rule := by
  cases rule <;> cases brief <;> rfl

theorem keyword_ofCounting (rule : Counting) : (ofCounting rule).keyword = .count rule := by
  cases rule <;> rfl

end Spelling

def Pair.ofModifier (style : Style) : Modifier → Pair
  | .select rule amount =>
    ⟨.ofSelection style.brief rule, .ofNat style.amountZeros amount.toNat⟩
  | .count rule threshold => ⟨.ofCounting rule, .ofNat style.amountZeros threshold.toNat⟩

theorem Pair.modifier_ofSelect (style : Style) (rule : Selection) {amount : Int}
    (h : 0 ≤ amount) : (ofModifier style (.select rule amount)).modifier = .select rule amount := by
  simp only [modifier, ofModifier, Spelling.keyword_ofSelection, Digits.value_ofNat,
    Int.toNat_of_nonneg h]

theorem Pair.modifier_ofCount (style : Style) (rule : Counting) {threshold : Int}
    (h : 0 ≤ threshold) :
    (ofModifier style (.count rule threshold)).modifier = .count rule threshold := by
  simp only [modifier, ofModifier, Spelling.keyword_ofCounting, Digits.value_ofNat,
    Int.toNat_of_nonneg h]

def Sign.ofInt (n : Int) : Sign := if n < 0 then minus else plus

theorem Sign.apply_ofInt (n : Int) : (ofInt n).apply n.natAbs = n := by
  unfold ofInt
  split
  · rw [apply]
    omega
  · rw [apply]
    omega

/-- The characters of phrases that are no digits. -/
def marks : List Char := ['d', 'f', 'k', 'h', 'l', 'v', 'e', 'r', '+', '-']

def IsSymbol (c : Char) : Prop := c.isDigit = true ∨ c ∈ marks

namespace IsSymbol

variable {c : Char} (h : IsSymbol c)

include h

theorem isPlain : IsPlain c := by
  have all : (marks.all fun c => decide (IsPlain c)) = true := by decide
  exact h.elim isPlain_of_isDigit fun mark => of_decide_eq_true (List.all_eq_true.mp all c mark)

theorem toLower_eq : c.toLower = c := by
  have all : (marks.all fun c => c.toLower == c) = true := by decide
  exact h.elim toLower_eq_of_isDigit fun mark => eq_of_beq (List.all_eq_true.mp all c mark)

theorem not_mem_separators : c ∉ [',', ':', '\n'] := by
  have all : ([',', ':', '\n'].all fun sep => !(sep.isDigit || marks.contains sep)) = true := by
    decide
  intro mem
  have apart := List.all_eq_true.mp all c mem
  simp only [Bool.not_eq_true', Bool.or_eq_false_iff, List.contains_eq_mem,
    decide_eq_false_iff_not] at apart
  rcases h with digit | mark
  · exact Bool.false_ne_true (apart.1.symm.trans digit)
  · exact apart.2 mark

end IsSymbol

namespace Phrase

/-- How an expression is written, up to letter case and outer blanks. -/
def ofExpression (style : Style) (e : Expression) : Phrase where
  count :=
    if style.omitsOne ∧ e.count = 1 then none else some (.ofNat style.countZeros e.count.toNat)
  sides := match e.die with
    | .numbered sides => some (.ofNat style.sidesZeros sides.toNat)
    | .fate => none
  modifier := e.modifier.map (Pair.ofModifier style)
  constant := e.constant.map fun n => (.ofInt n, .ofNat style.constantZeros n.natAbs)

theorem expression_ofExpression (style : Style) {most : Int} {e : Expression}
    (within : e.WithinBounds most)
    (threshold : ∀ rule t, e.modifier = some (.count rule t) → 0 ≤ t) :
    (ofExpression style e).expression = e := by
  obtain ⟨count, die, modifier, constant⟩ := e
  obtain ⟨pos, -, sides, amount⟩ := within
  dsimp only at pos sides amount threshold
  rw [ofExpression, expression, Expression.mk.injEq]
  refine ⟨?_, ?_, ?_, ?_⟩
  · dsimp only
    split
    · rename_i one
      exact one.2.symm
    · rw [Option.elim_some, Digits.value_ofNat, Int.toNat_of_nonneg (by omega)]
  · cases die with
    | fate => rfl
    | numbered n =>
      have two := sides n rfl
      dsimp only
      rw [Option.elim_some, Digits.value_ofNat, Int.toNat_of_nonneg (by omega)]
  · match modifier with
    | none => rfl
    | some (.select rule z) =>
      have one := (amount rule z rfl).1
      exact congrArg some (Pair.modifier_ofSelect style rule (by omega))
    | some (.count rule t) =>
      exact congrArg some (Pair.modifier_ofCount style rule (threshold rule t rfl))
  · cases constant with
    | none => rfl
    | some n =>
      dsimp only [Option.map_some]
      rw [Digits.value_ofNat, Sign.apply_ofInt]

/-- A text that differs from the phrase in letter case and in the blanks around it alone. -/
def WrittenAs (p : Phrase) (text : String) : Prop :=
  ∃ front body back, text.toList = front ++ body ++ back ∧
    (∀ c ∈ front, Text.isBlank c = true) ∧ (∀ c ∈ back, Text.isBlank c = true) ∧
    body.map Char.toLower = p.chars

theorem isSymbol_of_mem_chars {p : Phrase} {c : Char} (h : c ∈ p.chars) : IsSymbol c := by
  have digit (digits : Digits) (hc : c ∈ digits.chars) : IsSymbol c :=
    Or.inl (digits.isDigit c hc)
  simp only [chars, List.mem_append, List.mem_cons] at h
  rcases h with count | rfl | sides | modifier | constant
  · exact Or.inl (isDigit_of_mem_countChars count)
  · exact Or.inr (by decide)
  · unfold sidesChars at sides
    cases hp : p.sides with
    | none =>
      rw [hp, Option.elim_none, List.mem_singleton] at sides
      exact Or.inr (sides ▸ by decide)
    | some digits => exact digit digits (by simpa [hp] using sides)
  · unfold modifierChars at modifier
    cases hp : p.modifier with
    | none => simp [hp] at modifier
    | some pair =>
      rw [hp, Option.elim_some, Pair.chars, List.mem_append] at modifier
      rcases modifier with letter | hc
      · have letters : pair.spelling.chars ⊆ marks := by cases pair.spelling <;> decide
        exact Or.inr (letters letter)
      · exact digit pair.digits hc
  · unfold constantChars at constant
    cases hp : p.constant with
    | none => simp [hp] at constant
    | some signed =>
      rw [hp, Option.elim_some, List.mem_cons] at constant
      rcases constant with rfl | hc
      · have signs : signed.1.char ∈ marks := by cases signed.1 <;> decide
        exact Or.inr signs
      · exact digit signed.2 hc

theorem canonical_of_writtenAs {p : Phrase} {text : String} (h : p.WrittenAs text) :
    (canonical text).toList = p.chars := by
  obtain ⟨front, body, back, whole, hfront, hback, letters⟩ := h
  rw [canonical, String.toList_ofList, whole]
  exact canonicalChars_of_map_toLower hfront hback letters fun c hc =>
    (isSymbol_of_mem_chars hc).isPlain

theorem canonicalChars_chars (p : Phrase) : canonicalChars p.chars = p.chars := by
  have letters : p.chars.map Char.toLower = p.chars :=
    (List.map_congr_left fun c hc => (isSymbol_of_mem_chars hc).toLower_eq).trans (List.map_id _)
  have written : p.WrittenAs (String.ofList p.chars) :=
    ⟨[], p.chars, [], by simp, by simp, by simp, letters⟩
  simpa [canonical] using canonical_of_writtenAs written

/-- A phrase within the bounds is read from every text that it is written as. -/
theorem read_of_writtenAs {most : Int} {p : Phrase} {text : String}
    (within : p.expression.WithinBounds most)
    (short : ∀ digits ∈ p.numbers, digits.chars.length ≤ maxDigits) (h : p.WrittenAs text) :
    read most text = .ok p.expression := by
  have chars := canonical_of_writtenAs h
  have bounded := readCanonical_of_phrase most (chars ▸ shortRuns_chars short) chars.symm
  exact bounded.trans (bounded_of_withinBounds _ within)

end Phrase

/-- Reading undoes writing, in every style, letter case and outer blanks, as long as no number
is written with more digits than can be read. -/
theorem read_written {most : Int} {e : Expression} (within : e.WithinBounds most)
    (threshold : ∀ rule t, e.modifier = some (.count rule t) → 0 ≤ t) (style : Style)
    (short : ∀ digits ∈ (Phrase.ofExpression style e).numbers, digits.chars.length ≤ maxDigits)
    {text : String} (written : (Phrase.ofExpression style e).WrittenAs text) :
    read most text = .ok e := by
  have same := Phrase.expression_ofExpression style within threshold
  have found := Phrase.read_of_writtenAs (same.symm ▸ within) short written
  rwa [same] at found

theorem read_written_drop_lowest :
    let e : Expression := ⟨4, .numbered 6, some (.select .dropLowest 1), some (-2)⟩
    let style : Style := ⟨0, 2, 1, 0, true, true⟩
    e.WithinBounds 1000 ∧ (Phrase.ofExpression style e).chars = "4d006d01-2".toList ∧
      (Phrase.ofExpression style e).WrittenAs "\u3000 4d006D01-2\n" ∧
      read 1000 "\u3000 4d006D01-2\n" = .ok e := by
  intro e style
  have within : e.WithinBounds 1000 := breach?_eq_none_iff.mp (by decide)
  have written : (Phrase.ofExpression style e).WrittenAs "\u3000 4d006D01-2\n" :=
    ⟨"\u3000 ".toList, "4d006D01-2".toList, "\n".toList, by decide,
      List.all_eq_true.mp (by decide), List.all_eq_true.mp (by decide), by decide +kernel⟩
  refine ⟨within, by decide +kernel, written, ?_⟩
  exact read_written within (by simp [e]) style (by decide +kernel) written

end DiceRoller.Expression
