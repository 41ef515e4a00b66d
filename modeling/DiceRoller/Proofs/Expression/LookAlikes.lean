import DiceRoller.Proofs.Expression.Writing

/-!
# Look-alikes

Many characters look like the digits and the letters of expressions, and some are capitals of
ASCII letters in disguise. The tables lower just one character beyond ASCII to a text of ASCII
characters, the Kelvin sign. So a text with any other is malformed, wherever the character
stands, and the Kelvin sign is read as the letter k (`read_look_alikes`).
-/

namespace DiceRoller.Text

/-- The run of the Kelvin sign is the only one that leads from beyond ASCII into it. -/
theorem image_beyond_of_mem_lowerRuns {run : CaseRun} (h : run ∈ lowerRuns) :
    run.last < 128 ∨ run.first = 0x212A ∧ run.last = 0x212A ∨ 128 ≤ run.image := by
  have all : (lowerRuns.all fun run =>
      Nat.blt run.last 128 || run.first == 0x212A && run.last == 0x212A ||
        Nat.ble 128 run.image) = true := by decide +kernel
  have either := List.all_eq_true.mp all run h
  simp only [Bool.or_eq_true, Nat.blt_eq, Bool.and_eq_true, beq_iff_eq, Nat.ble_eq] at either
  rwa [or_assoc] at either

section Beyond

variable {c : Char} (beyond : 128 ≤ c.toNat) (notKelvin : c ≠ '\u212A')

include beyond notKelvin

theorem lowerChar_beyond : 128 ≤ (lowerChar c).toNat := by
  rcases lowerChar_eq_self_or c with same | ⟨run, mem, image, lowered, eq⟩
  · rwa [same]
  · rw [eq, toNat_ofNat_image mem lowered]
    obtain ⟨start, stop, -, rfl⟩ := CaseRun.lower?_eq_some lowered
    rcases image_beyond_of_mem_lowerRuns mem with ascii | ⟨first, last⟩ | far
    · omega
    · have code : c.toNat = 0x212A := by omega
      exact absurd (Char.toNat_inj.mp code) notKelvin
    · omega

theorem exists_beyond_mem_lowerImage (afterLetter : Bool) (rest : List Char) :
    ∃ x ∈ lowerImage afterLetter c rest, 128 ≤ x.toNat := by
  unfold lowerImage
  split_ifs
  · exact ⟨'ς', List.mem_singleton_self _, by decide⟩
  · exact ⟨'σ', List.mem_singleton_self _, by decide⟩
  · exact ⟨'\u0307', List.mem_pair.mpr (.inr rfl), by decide⟩
  · exact ⟨lowerChar c, List.mem_singleton_self _, lowerChar_beyond beyond notKelvin⟩

theorem exists_beyond_mem_lowerFrom (afterLetter : Bool) {s : List Char} (h : c ∈ s) :
    ∃ x ∈ lowerFrom afterLetter s, 128 ≤ x.toNat := by
  induction s generalizing afterLetter with
  | nil => exact absurd h List.not_mem_nil
  | cons d s ih =>
    rw [lowerFrom_cons]
    rcases List.mem_cons.mp h with rfl | later
    · obtain ⟨x, image, far⟩ := exists_beyond_mem_lowerImage beyond notKelvin afterLetter s
      exact ⟨x, List.mem_append_left _ image, far⟩
    · obtain ⟨x, image, far⟩ := ih (nextAfterLetter afterLetter d) later
      exact ⟨x, List.mem_append_right _ image, far⟩

end Beyond

/-- Writes the letter that the Kelvin sign looks like. -/
def plainKelvin (c : Char) : Char := if c = '\u212A' then 'k' else c

theorem apply_plainKelvin {α : Type} {f : Char → α} (alike : f 'k' = f '\u212A') (c : Char) :
    f (plainKelvin c) = f c := by
  unfold plainKelvin
  split_ifs with kelvin
  · rw [kelvin, alike]
  · rfl

theorem isBlank_plainKelvin (c : Char) : isBlank (plainKelvin c) = isBlank c :=
  apply_plainKelvin (by decide) c

theorem letterFollows_map_plainKelvin (rest : List Char) :
    letterFollows (rest.map plainKelvin) = letterFollows rest := by
  have passed : isPassedOver ∘ plainKelvin = isPassedOver :=
    funext (apply_plainKelvin (by decide +kernel))
  rw [letterFollows, letterFollows, List.dropWhile_map, passed]
  cases rest.dropWhile isPassedOver with
  | nil => rfl
  | cons c rest => exact apply_plainKelvin (f := isLetter) (by decide +kernel) c

theorem lowerImage_plainKelvin (afterLetter : Bool) (c : Char) (rest : List Char) :
    lowerImage afterLetter (plainKelvin c) (rest.map plainKelvin) =
      lowerImage afterLetter c rest := by
  have kelvin : lowerChar 'k' = lowerChar '\u212A' := by decide +kernel
  have image : lowerImage afterLetter 'k' rest = lowerImage afterLetter '\u212A' rest := by
    simp [lowerImage, kelvin]
  have same := apply_plainKelvin (f := fun d => lowerImage afterLetter d rest) image c
  rw [← same]
  simp only [lowerImage, letterFollows_map_plainKelvin]

theorem nextAfterLetter_plainKelvin (afterLetter : Bool) (c : Char) :
    nextAfterLetter afterLetter (plainKelvin c) = nextAfterLetter afterLetter c := by
  have alike : nextAfterLetter afterLetter 'k' = nextAfterLetter afterLetter '\u212A' := by
    cases afterLetter <;> decide +kernel
  exact apply_plainKelvin alike c

theorem lowerFrom_map_plainKelvin (afterLetter : Bool) (s : List Char) :
    lowerFrom afterLetter (s.map plainKelvin) = lowerFrom afterLetter s := by
  induction s generalizing afterLetter with
  | nil => rfl
  | cons c s ih =>
    rw [List.map_cons, lowerFrom_cons, lowerFrom_cons, lowerImage_plainKelvin,
      nextAfterLetter_plainKelvin, ih]

end DiceRoller.Text

namespace DiceRoller.Expression

theorem canonical_map_plainKelvin (text : String) :
    canonical (text.map Text.plainKelvin) = canonical text := by
  rw [canonical, canonicalChars, String.toList_map, Text.trim_map Text.isBlank_plainKelvin,
    Text.lower, Text.lowerFrom_map_plainKelvin]
  rfl

/-- Phrases are ASCII texts, so a text that lowering does not bring into ASCII is none. -/
theorem not_phrase_of_beyond {text : String} {c : Char} (h : c ∈ Text.trim text.toList)
    (beyond : 128 ≤ c.toNat) (notKelvin : c ≠ '\u212A') :
    ¬ ∃ p : Phrase, p.chars = (canonical text).toList := by
  rintro ⟨p, hp⟩
  obtain ⟨x, image, far⟩ := Text.exists_beyond_mem_lowerFrom beyond notKelvin false h
  have symbol : x ∈ p.chars := by
    rw [hp, canonical, String.toList_ofList]
    exact image
  have ascii := (Phrase.isSymbol_of_mem_chars symbol).isPlain.ascii
  omega

/-- A character beyond ASCII that is no blank at an end of the text makes the text malformed,
unless it is the Kelvin sign, which reads as the letter k in every result and every fault. -/
theorem read_look_alikes (most : Int) (text : String) :
    (Numeral.ShortRuns text.toList →
      (∃ c ∈ Text.trim text.toList, 128 ≤ c.toNat ∧ c ≠ '\u212A') →
      ∃ detail, read most text = .error (.fault ⟨.malformed, detail⟩)) ∧
    read most (text.map Text.plainKelvin) = read most text := by
  constructor
  · rintro short ⟨c, mem, beyond, notKelvin⟩
    have none := not_phrase_of_beyond mem beyond notKelvin
    obtain ⟨flaw, refused⟩ := readCanonical_of_no_phrase most (shortRuns_canonical short) none
    exact ⟨flaw.detail (canonical text), refused⟩
  · rw [read, canonical_map_plainKelvin, read]

theorem read_look_alikes_digit :
    let wide := "4d6kh\uFF13"
    let kelvin := "4D6\u212AH3"
    Numeral.ShortRuns wide.toList ∧
      (∃ c ∈ Text.trim wide.toList, 128 ≤ c.toNat ∧ c ≠ '\u212A') ∧
      (∃ detail, read 1000 wide = .error (.fault ⟨.malformed, detail⟩)) ∧
      kelvin.map Text.plainKelvin = "4D6kH3" ∧
      read 1000 kelvin = .ok ⟨4, .numbered 6, some (.select .keepHighest 3), none⟩ := by
  intro wide kelvin
  have short : Numeral.ShortRuns wide.toList := .of_length_le (by decide)
  have strange : ∃ c ∈ Text.trim wide.toList, 128 ≤ c.toNat ∧ c ≠ '\u212A' :=
    ⟨'\uFF13', by decide +kernel, by decide, by decide⟩
  have mapped : kelvin.map Text.plainKelvin = "4D6kH3" := by decide +kernel
  have alike := (read_look_alikes 1000 kelvin).2
  rw [mapped] at alike
  refine ⟨short, strange, (read_look_alikes 1000 wide).1 short strange, mapped, ?_⟩
  rw [← alike]
  decide +kernel

end DiceRoller.Expression
