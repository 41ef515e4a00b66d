import DiceRoller.Proofs.Expression.Bounds
import DiceRoller.Proofs.Expression.Modifiers
import DiceRoller.Proofs.Text.Lowering
import DiceRoller.Proofs.Text.Trimming

/-!
# Reading follows the grammar

The canonical text of an expression is either the text of one phrase or of none. A phrase is
read as the expression that it denotes and held against the bounds; any other text is
malformed, whatever numbers stand in it (`read_iff_phrase`).
-/

namespace DiceRoller.Expression

open Numeral (ShortRuns maxDigits)

theorem Digits.length_le (digits : Digits) (short : ShortRuns digits.chars) :
    digits.chars.length ≤ maxDigits :=
  short _ (List.infix_refl _) digits.isDigit

theorem Digits.value_lt_bound (digits : Digits) (short : ShortRuns digits.chars) :
    digits.value < Numeral.bound :=
  Numeral.value_lt_bound digits.isDigit (digits.length_le short)

theorem readNumeral_digits (digits : Digits) (short : ShortRuns digits.chars) :
    readNumeral digits.chars = .ok digits.value :=
  readNumeral_of_le (digits.length_le short)

namespace Outline

/-- No number of the outline is too long to be read. -/
structure Short (o : Outline) : Prop where
  count : ∀ digits ∈ o.count, ShortRuns digits.chars
  sides : ∀ digits ∈ o.sides, ShortRuns digits.chars
  pairs : ∀ pair ∈ o.pairs, ShortRuns pair.digits.chars
  tail : ShortRuns o.tail

theorem short_of_chars {o : Outline} (h : ShortRuns o.chars) : o.Short := by
  have rest := h.right.tail
  refine ⟨?_, ?_, ?_, rest.right.right⟩
  · intro digits hd
    have front := h.left
    rwa [Option.mem_def.mp hd] at front
  · intro digits hd
    have middle := rest.left
    rwa [Option.mem_def.mp hd] at middle
  · intro pair hp
    obtain ⟨before, after, split⟩ := List.append_of_mem hp
    have all := rest.right.left
    rw [split, List.flatMap_append, List.flatMap_cons] at all
    exact all.right.left.right

/-- The part of reading that depends on the modifiers and the tail. -/
theorem read_draft (text : String) {o : Outline} (short : o.Short) :
    o.draft.read text = do
      let modifier ← readModifier text (o.pairs.map Pair.clause)
      let constant ← readConstant text o.tail
      return ⟨o.count.elim 1 fun digits => digits.value,
        o.sides.elim .fate fun digits => .numbered digits.value, modifier, constant⟩ := by
  obtain ⟨count, sides, pairs, tail⟩ := o
  unfold Draft.read draft
  cases count with
  | none =>
    cases sides with
    | none => rfl
    | some b =>
      have second := readNumeral_digits b (short.sides b rfl)
      simp only [Option.elim_some, Option.map_some, second]
      rfl
  | some a =>
    have first := readNumeral_digits a (short.count a rfl)
    have given : a.chars.isEmpty = false := by simpa using a.ne_nil
    cases sides with
    | none =>
      simp only [Option.elim_some, given, first]
      rfl
    | some b =>
      have second := readNumeral_digits b (short.sides b rfl)
      simp only [Option.elim_some, Option.map_some, given, first, second]
      rfl

end Outline

/-- Reads the tail as the constant that it is, or refuses all of it. -/
theorem readConstant_cases (text : String) {tail : List Char} (short : ShortRuns tail) :
    (∃ p : Phrase, p.constantChars = tail) ∨
      readConstant text tail = .error (refuse text (.unexpected tail)) := by
  cases tail with
  | nil => exact Or.inl ⟨⟨none, none, none, none⟩, rfl⟩
  | cons sign digits =>
    by_cases valid : (sign = '+' ∨ sign = '-') ∧ digits ≠ [] ∧ digits.all Char.isDigit
    · obtain ⟨signed, ne, all⟩ := valid
      let run : Digits := ⟨digits, ne, List.all_eq_true.mp all⟩
      rcases signed with rfl | rfl
      · exact Or.inl ⟨⟨none, none, none, some (.plus, run)⟩, rfl⟩
      · exact Or.inl ⟨⟨none, none, none, some (.minus, run)⟩, rfl⟩
    · exact Or.inr (if_neg valid)

namespace Phrase

def outline (p : Phrase) : Outline := ⟨p.count, p.sides, p.modifier.toList, p.constantChars⟩

theorem chars_outline (p : Phrase) : p.outline.chars = p.chars := by
  unfold Outline.chars outline chars modifierChars
  cases p.modifier with
  | none => rfl
  | some pair => simp [countChars, sidesChars]

theorem clause?_constantChars (p : Phrase) : clause? p.constantChars = none := by
  unfold constantChars
  cases p.constant with
  | none => rfl
  | some c =>
    obtain ⟨sign, digits⟩ := c
    cases sign <;> rfl

theorem scan_chars (p : Phrase) : Draft.scan p.chars = some p.outline.draft := by
  rw [← p.chars_outline]
  exact p.outline.scan_chars p.endsDigits_constantChars p.clause?_constantChars

theorem readConstant_constantChars (text : String) {p : Phrase}
    (short : ShortRuns p.constantChars) :
    readConstant text p.constantChars = .ok p.expression.constant := by
  unfold constantChars expression at *
  cases hc : p.constant with
  | none => rfl
  | some c =>
    obtain ⟨sign, digits⟩ := c
    rw [hc] at short
    have numeral := readNumeral_digits digits short.tail
    have all : digits.chars.all Char.isDigit = true := List.all_eq_true.mpr digits.isDigit
    cases sign with
    | plus => simp [readConstant, numeral, digits.ne_nil, all, Sign.char, Sign.apply]
    | minus => simp [readConstant, numeral, digits.ne_nil, all, Sign.char, Sign.apply]

theorem read_outline (text : String) {p : Phrase} (short : p.outline.Short) :
    p.outline.draft.read text = .ok p.expression := by
  have constant := readConstant_constantChars text short.tail
  have modifier : readModifier text (p.outline.pairs.map Pair.clause) =
      .ok (p.modifier.map Pair.modifier) := by
    cases hm : p.modifier with
    | none => simp [outline, hm, readModifier_nil]
    | some pair =>
      have member : pair ∈ p.outline.pairs := by simp [outline, hm]
      simp [outline, hm,
        readModifier_singleton text (pair.digits.length_le (short.pairs pair member))]
  rw [Outline.read_draft text short, modifier]
  change (readConstant text p.constantChars >>= _) = _
  rw [constant]
  rfl

end Phrase

/-- An outline with more than one pair, or with a tail that is no constant, is refused. -/
theorem Outline.read_cases (text : String) {o : Outline} (short : o.Short) :
    (∃ p : Phrase, p.outline = o) ∨
      ∃ flaw, o.draft.read text = .error (refuse text flaw) := by
  have pairShort : ∀ pair ∈ o.pairs, pair.digits.chars.length ≤ maxDigits := fun pair hp =>
    pair.digits.length_le (short.pairs pair hp)
  rw [read_draft text short]
  by_cases many : 2 ≤ o.pairs.length
  · obtain ⟨flaw, refused⟩ := readModifier_of_two_le text pairShort many
    exact Or.inr ⟨flaw, by rw [refused]; rfl⟩
  · obtain ⟨modifier, found⟩ : ∃ modifier : Option Pair, o.pairs = modifier.toList := by
      match hp : o.pairs with
      | [] => exact ⟨none, rfl⟩
      | [pair] => exact ⟨some pair, rfl⟩
      | _ :: _ :: _ => simp [hp] at many
    rcases readConstant_cases text short.tail with ⟨q, constant⟩ | refused
    · refine Or.inl ⟨⟨o.count, o.sides, modifier, q.constant⟩, ?_⟩
      obtain ⟨count, sides, pairs, tail⟩ := o
      cases found
      cases constant
      rfl
    · have one : ∃ m, readModifier text (o.pairs.map Pair.clause) = .ok m := by
        cases modifier with
        | none => exact ⟨none, by rw [found]; rfl⟩
        | some pair =>
          have member : pair ∈ o.pairs := by simp [found]
          exact ⟨some pair.modifier, by
            rw [found]
            exact readModifier_singleton text (pairShort pair member)⟩
      obtain ⟨m, hm⟩ := one
      exact Or.inr ⟨.unexpected o.tail, by rw [hm, refused]; rfl⟩

theorem runsWithin_canonical {limit : Nat} {text : String}
    (h : Numeral.RunsWithin limit text.toList) :
    Numeral.RunsWithin limit (canonical text).toList := by
  intro run inside digits
  rw [canonical, String.toList_ofList, canonicalChars] at inside
  exact h run ((Text.infix_of_infix_lower digits inside).trans (Text.isInfix_trim _)) digits

theorem shortRuns_canonical {text : String} (h : ShortRuns text.toList) :
    ShortRuns (canonical text).toList :=
  runsWithin_canonical h

namespace Phrase

theorem short_outline {p : Phrase} (h : ShortRuns p.chars) : p.outline.Short :=
  Outline.short_of_chars (p.chars_outline.symm ▸ h)

theorem writable_expression {p : Phrase} (h : ShortRuns p.chars) : p.expression.Writable := by
  have short := short_outline h
  constructor
  · unfold expression
    cases hc : p.count with
    | none =>
      have one : ∀ c ∈ ['1'], c.isDigit = true := by simp
      exact Numeral.value_lt_bound one (by decide)
    | some digits => exact digits.value_lt_bound (short.count digits hc)
  · intro rule amount select
    unfold expression at select
    cases hm : p.modifier with
    | none => simp [hm] at select
    | some pair =>
      have member : pair ∈ p.outline.pairs := by simp [outline, hm]
      have less := pair.digits.value_lt_bound (short.pairs pair member)
      obtain ⟨spelling, digits⟩ := pair
      cases spelling <;> simp [hm, Pair.modifier, Spelling.keyword] at select <;>
        exact select.2 ▸ less

end Phrase

section Canonical

variable (most : Int) {text : String} (short : ShortRuns text.toList)

include short

theorem readCanonical_of_phrase {p : Phrase} (h : p.chars = text.toList) :
    readCanonical most text = p.expression.bounded most text := by
  have given : ¬ text.isEmpty = true := by
    intro none
    rw [String.isEmpty_iff.mp none] at h
    simp [Phrase.chars] at h
  rw [← h] at short
  rw [readCanonical, if_neg given, ← h, p.scan_chars]
  change (p.outline.draft.read text >>= _) = _
  rw [Phrase.read_outline text (Phrase.short_outline short)]
  rfl

theorem readCanonical_of_no_phrase (h : ¬ ∃ p : Phrase, p.chars = text.toList) :
    ∃ flaw, readCanonical most text = .error (refuse text flaw) := by
  by_cases none : text.isEmpty = true
  · exact ⟨.empty, if_pos none⟩
  · cases scanned : Draft.scan text.toList with
    | none => exact ⟨.noDice, by rw [readCanonical, if_neg none, scanned]⟩
    | some draft =>
      obtain ⟨o, chars, rfl⟩ := exists_outline_of_scan scanned
      rw [← chars] at short
      rcases Outline.read_cases text (Outline.short_of_chars short) with
        ⟨p, rfl⟩ | ⟨flaw, refused⟩
      · exact absurd ⟨p, p.chars_outline.symm.trans chars⟩ h
      · exact ⟨flaw, by rw [readCanonical, if_neg none, scanned]; simp [refused]; rfl⟩

end Canonical

/-- The three ways in which reading can end, each with what it says about the text. A number of
dice allowed that is not negative is quoted only beside a greater one that was read. -/
theorem read_cases_of_quotable {most : Int} {text : String}
    (hmost : 0 ≤ most ∨ most.natAbs < Numeral.bound) (short : ShortRuns text.toList) :
    (∃ p : Phrase, p.chars = (canonical text).toList ∧ p.expression.WithinBounds most ∧
      read most text = .ok p.expression) ∨
    (∃ p : Phrase, p.chars = (canonical text).toList ∧ ¬ p.expression.WithinBounds most ∧
      ∃ detail, read most text = .error (.fault ⟨.outOfRange, detail⟩)) ∨
    (¬ ∃ p : Phrase, p.chars = (canonical text).toList) ∧
      ∃ detail, read most text = .error (.fault ⟨.malformed, detail⟩) := by
  have short := shortRuns_canonical short
  unfold read
  by_cases derivable : ∃ p : Phrase, p.chars = (canonical text).toList
  · obtain ⟨p, hp⟩ := derivable
    have bounded := readCanonical_of_phrase most short hp
    by_cases within : p.expression.WithinBounds most
    · exact Or.inl ⟨p, hp, within, bounded.trans (bounded_of_withinBounds _ within)⟩
    · have writable := Phrase.writable_expression (hp ▸ short)
      have quoted : most < p.expression.count → most.natAbs < Numeral.bound := by
        intro less
        rcases hmost with low | small
        · have count := writable.count
          omega
        · exact small
      obtain ⟨detail, fault⟩ := bounded_of_not_withinBounds (canonical text) within quoted writable
      exact Or.inr (Or.inl ⟨p, hp, within, detail, bounded.trans fault⟩)
  · obtain ⟨flaw, refused⟩ := readCanonical_of_no_phrase most short derivable
    exact Or.inr (Or.inr ⟨derivable, flaw.detail (canonical text), refused⟩)

theorem read_cases {most : Int} {text : String} (hmost : most.natAbs < Numeral.bound)
    (short : ShortRuns text.toList) :
    (∃ p : Phrase, p.chars = (canonical text).toList ∧ p.expression.WithinBounds most ∧
      read most text = .ok p.expression) ∨
    (∃ p : Phrase, p.chars = (canonical text).toList ∧ ¬ p.expression.WithinBounds most ∧
      ∃ detail, read most text = .error (.fault ⟨.outOfRange, detail⟩)) ∨
    (¬ ∃ p : Phrase, p.chars = (canonical text).toList) ∧
      ∃ detail, read most text = .error (.fault ⟨.malformed, detail⟩) :=
  read_cases_of_quotable (.inr hmost) short

/-- Reading accepts exactly the texts of phrases within the bounds. A text that breaks the
grammar is malformed even where its numbers are out of range. -/
theorem read_iff_phrase {most : Int} {text : String} (hmost : most.natAbs < Numeral.bound)
    (short : ShortRuns text.toList) :
    ((∃ detail, read most text = .error (.fault ⟨.malformed, detail⟩)) ↔
      ¬ ∃ p : Phrase, p.chars = (canonical text).toList) ∧
    ((∃ detail, read most text = .error (.fault ⟨.outOfRange, detail⟩)) ↔
      ∃ p : Phrase, p.chars = (canonical text).toList ∧ ¬ p.expression.WithinBounds most) ∧
    (∀ e, read most text = .ok e ↔
      ∃ p : Phrase, p.chars = (canonical text).toList ∧ p.expression.WithinBounds most ∧
        p.expression = e) ∧
    ∀ p q : Phrase, p.chars = (canonical text).toList → q.chars = (canonical text).toList →
      p = q := by
  have unique (p q : Phrase) (hp : p.chars = (canonical text).toList)
      (hq : q.chars = (canonical text).toList) : p = q :=
    Phrase.chars_injective (hp.trans hq.symm)
  have only {p : Phrase} (hp : p.chars = (canonical text).toList) (P : Phrase → Prop) :
      (∃ q : Phrase, q.chars = (canonical text).toList ∧ P q) ↔ P p := by
    constructor
    · rintro ⟨q, hq, h⟩
      exact unique q p hq hp ▸ h
    · intro h
      exact ⟨p, hp, h⟩
  rcases read_cases hmost short with ⟨p, hp, within, result⟩ |
    ⟨p, hp, without, detail, result⟩ | ⟨none, detail, result⟩
  · have derivable : ∃ p : Phrase, p.chars = (canonical text).toList := ⟨p, hp⟩
    simpa [result, only hp, within, derivable] using unique
  · have derivable : ∃ p : Phrase, p.chars = (canonical text).toList := ⟨p, hp⟩
    simpa [result, only hp, without, derivable] using unique
  · rw [not_exists] at none
    simp [result, none]

theorem read_keep_three_of_four :
    (1000 : Int).natAbs < Numeral.bound ∧ ShortRuns " 4D6KH3+2 ".toList ∧
      read 1000 " 4D6KH3+2 " =
        .ok ⟨4, .numbered 6, some (.select .keepHighest 3), some 2⟩ := by
  have few : (1000 : Int).natAbs < Numeral.bound := by decide +kernel
  have short : ShortRuns " 4D6KH3+2 ".toList := .of_length_le (by decide)
  let four : Digits := ⟨['4'], by decide, by simp⟩
  let six : Digits := ⟨['6'], by decide, by simp⟩
  let three : Digits := ⟨['3'], by decide, by simp⟩
  let two : Digits := ⟨['2'], by decide, by simp⟩
  refine ⟨few, short, ((read_iff_phrase few short).2.2.1 _).mpr
    ⟨⟨some four, some six, some ⟨.kh, three⟩, some (.plus, two)⟩, ?_, ?_, ?_⟩⟩
  · decide +kernel
  · exact breach?_eq_none_iff.mp (by decide +kernel)
  · decide +kernel

end DiceRoller.Expression
