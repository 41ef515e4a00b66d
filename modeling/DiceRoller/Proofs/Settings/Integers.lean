import DiceRoller.Proofs.Settings.Spelling

/-!
# Integers as they are written

A text is read as an integer exactly if it is spelled as one (`readInteger_eq_ok_iff`): space around
it, a sign, leading zeros and underscores, digits in groups with single underscores between them,
and a point with zeros after it, of which all but the digits may be missing. Any other text is
reported as no integer, or as too long where it starts with too many digits.
-/

namespace DiceRoller.Settings

theorem exists_inner {mark : Mark} {negative : Bool} {joined digits : List Char}
    (plain : IsPlain digits)
    (h : signed negative digits = if mark = .minus then '-' :: joined else joined) :
    ∃ inner, joined = signed inner digits ∧ negative = (decide (mark = .minus) || inner) ∧
      (inner = true → mark ≠ .minus) := by
  split at h
  · rename_i minus
    cases negative with
    | true => exact ⟨false, (List.cons_eq_cons.mp h).2.symm, by simp [minus], nofun⟩
    | false => exact absurd (congrArg List.head? h) plain.head_ne_minus
  · rename_i other
    exact ⟨negative, h.symm, by simp [other], fun _ => other⟩

/-- What the steps of the reading take off a text are the parts of a spelling. -/
theorem exists_spelling {text : List Char} {n : Int} (h : readInteger text = .ok n) :
    ∃ spelling : Spelling, spelling.text = text ∧ spelling.value = n := by
  unfold readInteger at h
  split at h
  · cases h
  split at h
  · cases h
  · rename_i n' plain
    obtain rfl := Except.ok.inj h
    obtain ⟨form, hform, hplain⟩ := Option.bind_eq_some_iff.mp plain
    obtain ⟨before, after, around, space⟩ := exists_trimSpace text
    obtain ⟨mark, marked, isMinus⟩ := exists_splitSign (trimSpace text)
    simp only [plainForm?] at hform
    obtain ⟨rest, hzeros, hgroups⟩ := Option.bind_eq_some_iff.mp hform
    obtain ⟨joined, hjoined, rfl⟩ := Option.map_eq_some_iff.mp hgroups
    obtain ⟨lead, led, isLead, leads⟩ := exists_of_dropZeros? hzeros
    obtain ⟨zeros, pointed⟩ := exists_dropFraction rest
    obtain ⟨groups, spelled, grouped, -, flat⟩ := joinGroups?_eq_some_iff.mp hjoined
    obtain ⟨negative, digits, sign, plain, value⟩ := plainInteger?_eq_some_iff.mp hplain
    rw [isMinus] at sign
    obtain ⟨inner, rfl, rfl, outer⟩ := exists_inner plain (by simpa using sign)
    -- A minus behind the leading zeros is seen before the groups are joined.
    have whole : rest.head? = (signed inner digits).head? := by
      rw [← pointed, ← spelled, List.head?_append, head?_intercalate fun g hg => (grouped g hg).1,
        flat]
      obtain ⟨c, digits, rfl⟩ := List.exists_cons_of_ne_nil plain.ne_nil
      cases inner <;> rfl
    refine ⟨⟨before, mark, lead, groups, inner, digits, zeros, after, space, isLead, ?_, plain,
      grouped, flat⟩, ?_, value⟩
    · intro turned
      refine ⟨leads ?_, outer turned⟩
      rw [whole, turned]
      rfl
    · rw [Spelling.text, Spelling.unsigned, Spelling.numeral, spelled, pointed, led, marked, around]

theorem readInteger_eq_ok_iff {text : List Char} {n : Int} :
    readInteger text = .ok n ↔
      ∃ spelling : Spelling, spelling.text = text ∧ spelling.value = n := by
  constructor
  · exact exists_spelling
  · rintro ⟨spelling, rfl, rfl⟩
    exact spelling.readInteger_text

theorem readInteger_eq_tooLong_iff {text : List Char} :
    readInteger text = .error .tooLong ↔ StartsTooLong text := by
  rw [← startsTooLong_iff, readInteger]
  split
  · rename_i long
    simp [long]
  · rename_i short
    split <;> simp [short]

theorem startsTooLong_ones {n : Nat} (h : Numeral.maxDigits < n) (rest : List Char) :
    StartsTooLong (List.replicate n '1' ++ rest) := by
  refine ⟨false, List.replicate n '1', rest, rfl, fun c hc => ?_, ?_, ?_⟩
  · rw [List.eq_of_mem_replicate hc]
    rfl
  · rw [List.head?_replicate]
    split <;> simp
  · rwa [List.length_replicate]

theorem readInteger_eq_notInteger_iff {text : List Char} :
    readInteger text = .error .notInteger ↔
      ¬ StartsTooLong text ∧ ∀ spelling : Spelling, spelling.text ≠ text := by
  rw [← readInteger_eq_tooLong_iff]
  cases read : readInteger text with
  | ok n =>
    obtain ⟨spelling, same, -⟩ := exists_spelling read
    simp only [reduceCtorEq, not_false_eq_true, true_and, false_iff, not_forall, not_not]
    exact ⟨spelling, same⟩
  | error problem =>
    have unspelled : ∀ spelling : Spelling, spelling.text ≠ text := by
      rintro spelling rfl
      rw [spelling.readInteger_text] at read
      cases read
    cases problem with
    | notInteger => simp [unspelled]
    | tooLong => simp

end DiceRoller.Settings
