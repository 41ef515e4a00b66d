import DiceRoller.Numeral
import Mathlib.Algebra.Order.Group.Nat
import Mathlib.Tactic.Ring

/-!
# Numerals within the bound

A text can be read through when no run of digits in it is too long. The numbers read from it
are then below the bound of what can be written, so that no fault that quotes them turns into
an abort. Numbers below the root of the bound leave room for their products as well.
-/

namespace DiceRoller.Numeral

theorem value_cons (c : Char) (digits : List Char) :
    value (c :: digits) = 10 ^ digits.length * (c.toNat - '0'.toNat) + value digits := by
  unfold value
  rw [Nat.ofDigitChars_cons, Nat.ofDigitChars_eq_ofDigitChars_zero, Nat.mul_zero, Nat.zero_add]

theorem value_zeros_append (zeros : Nat) (digits : List Char) :
    value (List.replicate zeros '0' ++ digits) = value digits := by
  unfold value
  rw [Nat.ofDigitChars_append, Nat.ofDigitChars_replicate_zero, Nat.mul_zero]

theorem value_lt_pow {digits : List Char} (h : ∀ c ∈ digits, c.isDigit = true) :
    value digits < 10 ^ digits.length := by
  induction digits with
  | nil => simp [value]
  | cons c digits ih =>
    have rest := ih fun x hx => h x (List.mem_cons_of_mem _ hx)
    have digit : c.toNat - '0'.toNat ≤ 9 := by
      have hc := Char.isDigit_iff_toNat.mp (h c List.mem_cons_self)
      simp only [Char.reduceToNat] at hc ⊢
      omega
    have front := Nat.mul_le_mul_left (10 ^ digits.length) digit
    calc
      _ = 10 ^ digits.length * (c.toNat - '0'.toNat) + value digits := value_cons c digits
      _ ≤ 10 ^ digits.length * 9 + value digits := Nat.add_le_add_right front _
      _ < 10 ^ digits.length * 9 + 10 ^ digits.length := Nat.add_lt_add_left rest _
      _ = 10 ^ (c :: digits).length := by
        rw [List.length_cons]
        ring

theorem value_lt_pow_of_le {digits : List Char} {limit : Nat}
    (h : ∀ c ∈ digits, c.isDigit = true) (short : digits.length ≤ limit) :
    value digits < Nat.pow 10 limit :=
  (value_lt_pow h).trans_le (Nat.pow_le_pow_right (Nat.succ_pos 9) short)

theorem value_lt_bound {digits : List Char} (h : ∀ c ∈ digits, c.isDigit = true)
    (short : digits.length ≤ maxDigits) : value digits < bound := by
  have less := value_lt_pow_of_le h short
  unfold bound
  exact less

/-- Runs of as many digits are in the order of their values. -/
theorem lt_of_value_lt {a b : List Char} (ha : ∀ c ∈ a, c.isDigit = true)
    (hb : ∀ c ∈ b, c.isDigit = true) (length : a.length = b.length) (h : value a < value b) :
    a < b := by
  induction a generalizing b with
  | nil =>
    rw [List.eq_nil_of_length_eq_zero length.symm] at h
    exact absurd h (Nat.lt_irrefl _)
  | cons c a ih =>
    cases b with
    | nil => simp at length
    | cons d b =>
      have ⟨hc, ha⟩ := List.forall_mem_cons.mp ha
      have ⟨hd, hb⟩ := List.forall_mem_cons.mp hb
      have length := Nat.succ.inj length
      rw [List.cons_lt_cons_iff]
      rcases Nat.lt_trichotomy c.toNat d.toNat with less | same | more
      · exact Or.inl less
      · refine Or.inr ⟨Char.toNat_inj.mp same, ih ha hb length ?_⟩
        rw [value_cons, value_cons, same, length] at h
        exact Nat.lt_of_add_lt_add_left h
      · have digit := Char.isDigit_iff_toNat.mp hd
        have front : 10 ^ b.length * (d.toNat - '0'.toNat + 1) ≤
            10 ^ b.length * (c.toNat - '0'.toNat) := by
          apply Nat.mul_le_mul_left
          omega
        have rest := value_lt_pow hb
        rw [value_cons, value_cons, length] at h
        rw [Nat.mul_add, Nat.mul_one] at front
        omega

theorem write_of_lt {n : Int} (h : n.natAbs < bound) : write n = .ok (toString n) :=
  write_eq_ok_iff.mpr ⟨h, rfl⟩

theorem write_of_le {n : Int} (h : bound ≤ n.natAbs) : write n = .error .longInteger :=
  if_neg (Nat.not_lt.mpr h)

theorem toList_toString_negSucc (n : Nat) :
    (toString (Int.negSucc n)).toList = '-' :: n.succ.repr.toList :=
  String.toList_append

section Characters

variable {c : Char} (other : c.isDigit = false)

include other

theorem not_mem_toDigits (n : Nat) : c ∉ Nat.toDigits 10 n := by
  intro mem
  have digit := Nat.isDigit_of_mem_toDigits (by decide) (by decide) mem
  simp [other] at digit

theorem not_mem_repr (n : Nat) : c ∉ n.repr.toList := by
  rw [Nat.repr, String.toList_ofList]
  exact not_mem_toDigits other n

/-- An integer is written in digits, with a minus sign at most. -/
theorem not_mem_toString (sign : c ≠ '-') (n : Int) : c ∉ (toString n).toList := by
  cases n with
  | ofNat n => exact not_mem_repr other n
  | negSucc n =>
    rw [toList_toString_negSucc, List.mem_cons, not_or]
    exact ⟨sign, not_mem_repr other n.succ⟩

end Characters

theorem read_of_le {digits : List Char} (h : digits.length ≤ maxDigits) :
    read digits = .ok (value digits) :=
  read_eq_ok_iff.mpr ⟨h, rfl⟩

/-- Every run of digits in the text has at most so many of them. -/
def RunsWithin (limit : Nat) (s : List Char) : Prop :=
  ∀ run, run <:+: s → (∀ c ∈ run, c.isDigit = true) → run.length ≤ limit

/-- Every run of digits in the text is short enough to be read. -/
abbrev ShortRuns (s : List Char) : Prop := RunsWithin maxDigits s

namespace RunsWithin

variable {limit : Nat} {s t : List Char}

theorem of_length_le (h : s.length ≤ limit) : RunsWithin limit s :=
  fun _ inside _ => inside.length_le.trans h

theorem of_infix (h : RunsWithin limit s) (inside : t <:+: s) : RunsWithin limit t :=
  fun run hrun digits => h run (hrun.trans inside) digits

theorem left (h : RunsWithin limit (s ++ t)) : RunsWithin limit s :=
  h.of_infix (List.prefix_append s t).isInfix

theorem right (h : RunsWithin limit (s ++ t)) : RunsWithin limit t :=
  h.of_infix (List.suffix_append s t).isInfix

theorem tail {c : Char} (h : RunsWithin limit (c :: s)) : RunsWithin limit s :=
  h.of_infix (List.suffix_cons c s).isInfix

theorem shortRuns (h : RunsWithin limit s) (le : limit ≤ maxDigits) : ShortRuns s :=
  fun run inside digits => (h run inside digits).trans le

end RunsWithin

/-- The least number with more than half of the digits that can be written. -/
def root : Nat := Nat.pow 10 (maxDigits / 2)

theorem exists_half : ∃ n, n ≠ 0 ∧ maxDigits / 2 = n ∧ maxDigits = n + n :=
  ⟨2150, by decide⟩

theorem root_mul_root : root * root = bound := by
  obtain ⟨n, -, half, whole⟩ := exists_half
  unfold root bound
  rw [half, whole]
  exact (Nat.pow_add 10 n n).symm

theorem two_le_root : 2 ≤ root := by
  obtain ⟨n, ne, half, -⟩ := exists_half
  unfold root
  rw [half]
  exact Nat.one_lt_pow ne (by decide)

theorem root_le_bound : root ≤ bound := by
  rw [← root_mul_root]
  exact Nat.le_mul_of_pos_left root (Nat.zero_lt_of_lt two_le_root)

/-- There is room for a constant beside a product of two numbers below the root. -/
theorem add_lt_bound {m n : Int} (hm : m.natAbs ≤ (root - 1) * (root - 1)) (hn : n.natAbs < root) :
    (m + n).natAbs < bound := by
  obtain ⟨k, hk⟩ := Nat.exists_eq_add_of_le' (Nat.one_le_of_lt two_le_root)
  have square : (k + 1) * (k + 1) = bound := hk ▸ root_mul_root
  have sum := Int.natAbs_add_le m n
  rw [hk, Nat.add_sub_cancel] at hm
  rw [hk] at hn
  calc
    (m + n).natAbs ≤ k * k + k := by omega
    _ < (k + 1) * (k + 1) := by ring_nf; omega
    _ = bound := square

end DiceRoller.Numeral
