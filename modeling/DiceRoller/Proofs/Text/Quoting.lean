import DiceRoller.Proofs.Text.Unbroken
import DiceRoller.Text.Quoted
import Mathlib.Data.List.Basic
import Mathlib.Tactic.SplitIfs

/-!
# Quoted texts

Whatever a text holds, its quotation has printable characters alone (`isPrintable_of_mem_quoted`),
and so it is in one line.
-/

namespace DiceRoller.Text

theorem exists_digitChar_of_mem_toDigits {base n : Nat} {c : Char} (hbase : 1 < base)
    (h : c ∈ Nat.toDigits base n) : ∃ d < base, c = d.digitChar := by
  induction n using Nat.strongRecOn with
  | ind n ih =>
    rw [Nat.toDigits_eq_if hbase] at h
    split at h
    · rename_i small
      exact ⟨n, small, List.mem_singleton.mp h⟩
    · rename_i large
      rcases List.mem_append.mp h with front | last
      · exact ih (n / base) (Nat.div_lt_self (by omega) hbase) front
      · exact ⟨n % base, Nat.mod_lt n (by omega), List.mem_singleton.mp last⟩

theorem isPrintable_of_ascii {c : Char} (h : 0x20 ≤ c.toNat ∧ c.toNat < 0x7F) :
    isPrintable c = true := by
  have apart : (unprintableRanges.all fun range =>
      Nat.ble range.2 0x1F || Nat.ble 0x7F range.1) = true := by decide +kernel
  rw [isPrintable, Bool.not_eq_true', Bool.eq_false_iff, ne_eq, Ranges.holds_eq_true_iff]
  rintro ⟨range, hrange, first, last⟩
  have outside := List.all_eq_true.mp apart range hrange
  simp only [Bool.or_eq_true, Nat.ble_eq] at outside
  omega

theorem isPrintable_of_mem_hexDigits {width code : Nat} {c : Char} (h : c ∈ hexDigits width code) :
    isPrintable c = true := by
  have digits : ∀ d < 16, 0x20 ≤ d.digitChar.toNat ∧ d.digitChar.toNat < 0x7F := by decide
  rcases List.mem_append.mp h with zero | digit
  · rw [List.eq_of_mem_replicate zero]
    exact isPrintable_of_ascii (by decide)
  · obtain ⟨d, hd, rfl⟩ := exists_digitChar_of_mem_toDigits (by decide) digit
    exact isPrintable_of_ascii (digits d hd)

/-- The signs that a text is escaped with. -/
theorem isPrintable_of_mem_signs {c : Char}
    (h : c ∈ ['\\', 'n', 'r', 't', 'x', 'u', 'U', '"', '\x27']) : isPrintable c = true := by
  simp only [List.mem_cons, List.not_mem_nil, or_false] at h
  rcases h with rfl | rfl | rfl | rfl | rfl | rfl | rfl | rfl | rfl <;>
    exact isPrintable_of_ascii (by decide)

theorem isPrintable_of_mem_escapeCode {code : Nat} {c : Char} (h : c ∈ escapeCode code) :
    isPrintable c = true := by
  have escaped {sign : Char} {width : Nat} (hsign : isPrintable sign = true)
      (h : c ∈ '\\' :: sign :: hexDigits width code) : isPrintable c = true := by
    rcases List.mem_cons.mp h with rfl | h
    · exact isPrintable_of_mem_signs (by decide)
    · rcases List.mem_cons.mp h with rfl | digit
      · exact hsign
      · exact isPrintable_of_mem_hexDigits digit
  unfold escapeCode at h
  split at h
  · exact escaped (isPrintable_of_mem_signs (by decide)) h
  · split at h
    · exact escaped (isPrintable_of_mem_signs (by decide)) h
    · exact escaped (isPrintable_of_mem_signs (by decide)) h

theorem isPrintable_of_mem_escapeChar {quote c x : Char} (hquote : isPrintable quote = true)
    (h : x ∈ escapeChar quote c) : isPrintable x = true := by
  unfold escapeChar at h
  split at h
  · rename_i self
    rcases List.mem_pair.mp h with rfl | rfl
    · exact isPrintable_of_mem_signs (by decide)
    · rcases self with rfl | rfl
      · exact hquote
      · exact isPrintable_of_mem_signs (by decide)
  · split_ifs at h with feed carriage tab printable
    · exact isPrintable_of_mem_signs (List.subset_def.mp (by decide) h)
    · exact isPrintable_of_mem_signs (List.subset_def.mp (by decide) h)
    · exact isPrintable_of_mem_signs (List.subset_def.mp (by decide) h)
    · rwa [List.mem_singleton.mp h]
    · exact isPrintable_of_mem_escapeCode h

theorem isPrintable_quoteFor (s : List Char) : isPrintable (quoteFor s) = true := by
  unfold quoteFor
  split
  · exact isPrintable_of_mem_signs (by decide)
  · exact isPrintable_of_mem_signs (by decide)

theorem isPrintable_of_mem_quoted {s : List Char} {c : Char} (h : c ∈ quoted s) :
    isPrintable c = true := by
  have hquote := isPrintable_quoteFor s
  simp only [quoted, List.mem_cons, List.mem_append, List.mem_flatMap, List.not_mem_nil, or_false,
    List.cons_append] at h
  rcases h with rfl | ⟨x, -, escaped⟩ | rfl
  · exact hquote
  · exact isPrintable_of_mem_escapeChar hquote escaped
  · exact hquote

theorem newline_not_mem_quoted (s : List Char) : '\n' ∉ quoted s := by
  intro mem
  exact absurd (isPrintable_of_mem_quoted mem) (by decide)

end DiceRoller.Text
