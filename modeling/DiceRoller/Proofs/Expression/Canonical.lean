import DiceRoller.Expression.Reading
import DiceRoller.Proofs.Text.Lowered
import DiceRoller.Proofs.Text.Unbroken

/-!
# Canonical texts

A canonical text is its own canonical text, so that it is read as the text that it came from
(`read_canonical`). Of blanks around an expression and of the letter case of ASCII letters
nothing is left in it (`canonicalChars_of_map_toLower`).
-/

namespace DiceRoller.Expression

theorem canonicalChars_canonicalChars (s : List Char) :
    canonicalChars (canonicalChars s) = canonicalChars s := by
  rw [canonicalChars, canonicalChars, Text.trim_lower (Text.trim_trim s), Text.lower_lower]

theorem canonical_canonical (text : String) : canonical (canonical text) = canonical text := by
  simp only [canonical, String.toList_ofList, canonicalChars_canonicalChars]

theorem read_canonical (most : Int) (text : String) :
    read most (canonical text) = read most text := by
  rw [read, canonical_canonical, read]

/-- No line break comes up where none was. -/
theorem unbroken_canonical {text : String} (h : Unbroken text) : Unbroken (canonical text) := by
  rw [Unbroken, canonical, String.toList_ofList]
  intro newline
  exact h (Text.mem_of_mem_trim (Text.mem_of_mem_lowerFrom (by decide) newline))

/-- An ASCII character that is no blank. -/
structure IsPlain (c : Char) : Prop where
  ascii : c.toNat < 128
  not_blank : Text.isBlank c = false

instance (c : Char) : Decidable (IsPlain c) :=
  decidable_of_iff (c.toNat < 128 ∧ Text.isBlank c = false)
    ⟨fun ⟨ascii, filled⟩ => ⟨ascii, filled⟩, fun h => ⟨h.ascii, h.not_blank⟩⟩

theorem isPlain_of_isDigit {c : Char} (h : c.isDigit = true) : IsPlain c := by
  have all : ∀ n < 58, Text.isBlank (Char.ofNat n) = true → n < 48 := by decide
  have digit := Char.isDigit_iff_toNat.mp h
  simp only [Char.reduceToNat] at digit
  refine ⟨by omega, ?_⟩
  rw [← Char.ofNat_toNat c, Bool.eq_false_iff]
  intro blank
  have less := all c.toNat (by omega) blank
  omega

theorem toLower_eq_of_isDigit {c : Char} (h : c.isDigit = true) : c.toLower = c := by
  apply dif_neg
  rintro ⟨capital, -⟩
  have first : 'A'.toNat ≤ c.toNat := capital
  have digit := Char.isDigit_iff_toNat.mp h
  simp only [Char.reduceToNat] at first digit
  omega

theorem toNat_lt_of_toLower {c : Char} (h : c.toLower.toNat < 128) : c.toNat < 128 := by
  unfold Char.toLower at h
  split at h
  · rename_i capital
    have last : c.toNat ≤ 'Z'.toNat := capital.2
    simp only [Char.reduceToNat] at last
    omega
  · exact h

/-- Of the tables only the run of the Latin capitals starts among the ASCII characters. -/
theorem eq_of_first_lt_of_mem_lowerRuns {run : Text.CaseRun} (h : run ∈ Text.lowerRuns)
    (ascii : run.first < 128) : run.first = 0x41 ∧ run.last = 0x5A := by
  have all : (Text.lowerRuns.all fun run =>
      Nat.ble 128 run.first || run.first == 0x41 && run.last == 0x5A) = true := by decide +kernel
  have either := List.all_eq_true.mp all run h
  simp only [Bool.or_eq_true, Nat.ble_eq, Bool.and_eq_true, beq_iff_eq] at either
  rcases either with late | capitals
  · omega
  · exact capitals

theorem lowerChar_of_ascii {c : Char} (h : c.toNat < 128) : Text.lowerChar c = c.toLower := by
  by_cases capital : 0x41 ≤ c.toNat ∧ c.toNat ≤ 0x5A
  · have all : ∀ n < 26,
        Text.lowerChar (Char.ofNat (0x41 + n)) = (Char.ofNat (0x41 + n)).toLower := by
      decide +kernel
    have code := all (c.toNat - 0x41) (by omega)
    rwa [Nat.add_sub_cancel' capital.1, Char.ofNat_toNat] at code
  · have same : c.toLower = c := dif_neg capital
    rw [same]
    rcases Text.lowerChar_eq_self_or c with same | ⟨run, mem, image, lowered, -⟩
    · exact same
    · obtain ⟨start, stop, -⟩ := Text.CaseRun.lower?_eq_some lowered
      obtain ⟨first, last⟩ := eq_of_first_lt_of_mem_lowerRuns mem (by omega)
      exact absurd ⟨first ▸ start, last ▸ stop⟩ capital

theorem isBlank_toLower {c : Char} (h : c.toNat < 128) :
    Text.isBlank c.toLower = Text.isBlank c := by
  have all : ∀ n < 128, Text.isBlank (Char.ofNat n).toLower = Text.isBlank (Char.ofNat n) := by
    decide +kernel
  have code := all c.toNat h
  rwa [Char.ofNat_toNat] at code

theorem lower_of_ascii {s : List Char} (h : ∀ c ∈ s, c.toNat < 128) :
    Text.lower s = s.map Char.toLower := by
  have sigma : 'Σ' ∉ s := by
    intro mem
    exact absurd (h _ mem) (by decide)
  have dotted : 'İ' ∉ s := by
    intro mem
    exact absurd (h _ mem) (by decide)
  rw [Text.lower, Text.lowerFrom_eq_map false sigma dotted]
  exact List.map_congr_left fun c hc => lowerChar_of_ascii (h c hc)

/-- Blanks around a text of plain characters, and capitals in it, make no difference. -/
theorem canonicalChars_of_map_toLower {front body back s : List Char}
    (hfront : ∀ c ∈ front, Text.isBlank c = true) (hback : ∀ c ∈ back, Text.isBlank c = true)
    (letters : body.map Char.toLower = s) (plain : ∀ c ∈ s, IsPlain c) :
    canonicalChars (front ++ body ++ back) = s := by
  have lowered {c : Char} (hc : c ∈ body) : IsPlain c.toLower :=
    plain _ (letters ▸ List.mem_map_of_mem hc)
  have ascii : ∀ c ∈ body, c.toNat < 128 := by
    intro c hc
    exact toNat_lt_of_toLower (lowered hc).ascii
  have filled : ∀ c ∈ body, Text.isBlank c = false := by
    intro c hc
    rw [← isBlank_toLower (ascii c hc)]
    exact (lowered hc).not_blank
  rw [canonicalChars, Text.trim_append_blanks _ hback, Text.trim_blanks_append _ hfront,
    Text.trim_of_no_blank filled, lower_of_ascii ascii, letters]

end DiceRoller.Expression
