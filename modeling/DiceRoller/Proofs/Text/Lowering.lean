import DiceRoller.Text.Lowercase
import Mathlib.Tactic.SplitIfs

/-!
# What lowering does to digits

Lowering replaces each character by its image, one or two characters that depend on the
neighbours for the capital sigma alone. Digits are their own images and no other character
has a digit in its image, so that lowering neither makes nor joins runs of digits
(`infix_of_infix_lower`).
-/

namespace DiceRoller.Text

/-- What a character becomes between the characters before and after it. -/
def lowerImage (afterLetter : Bool) (c : Char) (rest : List Char) : List Char :=
  if c = 'Σ' then [if afterLetter && !letterFollows rest then 'ς' else 'σ']
  else if c = 'İ' then ['i', '\u0307']
  else [lowerChar c]

/-- Whether the next character comes after a letter. -/
def nextAfterLetter (afterLetter : Bool) (c : Char) : Bool :=
  if c = 'Σ' ∨ c = 'İ' then true
  else if isPassedOver c then afterLetter else isLetter c

theorem lowerFrom_cons (afterLetter : Bool) (c : Char) (rest : List Char) :
    lowerFrom afterLetter (c :: rest) =
      lowerImage afterLetter c rest ++ lowerFrom (nextAfterLetter afterLetter c) rest := by
  by_cases sigma : c = 'Σ'
  · subst sigma
    simp [lowerFrom, lowerImage, nextAfterLetter]
  · by_cases dotted : c = 'İ'
    · subst dotted
      simp [lowerFrom, lowerImage, nextAfterLetter]
    · rw [lowerFrom, lowerImage, nextAfterLetter, if_neg sigma, if_neg dotted,
        if_neg (not_or_intro sigma dotted)]
      · rfl
      · exact sigma
      · exact dotted

/-- The tables lower nothing before the capital a and to nothing before the small one. -/
theorem letters_of_mem_lowerRuns {run : CaseRun} (h : run ∈ lowerRuns) :
    0x41 ≤ run.first ∧ 0x61 ≤ run.image := by
  have all : ∀ run ∈ lowerRuns, 0x41 ≤ run.first ∧ 0x61 ≤ run.image := by decide +kernel
  exact all run h

theorem CaseRun.lower?_eq_some {run : CaseRun} {code image : Nat}
    (h : run.lower? code = some image) :
    run.first ≤ code ∧ code ≤ run.last ∧ (code - run.first) % run.step = 0 ∧
      image = run.image + (code - run.first) := by
  unfold CaseRun.lower? at h
  split at h
  · rename_i inside
    simp only [Bool.and_eq_true, decide_eq_true_eq, beq_iff_eq] at inside
    exact ⟨inside.1.1, inside.1.2, inside.2, (Option.some.inj h).symm⟩
  · cases h

/-- A character that is not its own image is lowered by a run of the tables. -/
theorem lowerChar_eq_self_or (c : Char) :
    lowerChar c = c ∨ ∃ run ∈ lowerRuns, ∃ image,
      run.lower? c.toNat = some image ∧ lowerChar c = Char.ofNat image := by
  unfold lowerChar
  cases found : lowerRuns.findSome? (·.lower? c.toNat) with
  | none => exact Or.inl rfl
  | some image =>
    obtain ⟨run, mem, lowered⟩ := List.exists_of_findSome?_eq_some found
    exact Or.inr ⟨run, mem, image, lowered, rfl⟩

theorem lowerChar_cases (c : Char) :
    lowerChar c = c ∨
      0x41 ≤ c.toNat ∧ ∃ code, 0x61 ≤ code ∧ lowerChar c = Char.ofNat code := by
  rcases lowerChar_eq_self_or c with same | ⟨run, mem, image, lowered, eq⟩
  · exact Or.inl same
  · obtain ⟨first, least⟩ := letters_of_mem_lowerRuns mem
    obtain ⟨start, -, -, rfl⟩ := CaseRun.lower?_eq_some lowered
    exact Or.inr ⟨Nat.le_trans first start, _, Nat.le_trans least (Nat.le_add_right _ _), eq⟩

theorem isDigit_ofNat_of_le {code : Nat} (h : 0x61 ≤ code) :
    (Char.ofNat code).isDigit = false := by
  by_cases valid : code.isValidChar
  · have same : (Char.ofNat code).toNat = code := by
      rw [Char.ofNat, dif_pos valid]
      rfl
    rw [Bool.eq_false_iff, ne_eq, Char.isDigit_iff_toNat, same]
    simp only [Char.reduceToNat]
    omega
  · rw [Char.ofNat, dif_neg valid]
    decide

theorem isDigit_lowerChar (c : Char) : (lowerChar c).isDigit = c.isDigit := by
  rcases lowerChar_cases c with same | ⟨first, code, least, image⟩
  · rw [same]
  · have capital : c.isDigit = false := by
      rw [Bool.eq_false_iff, ne_eq, Char.isDigit_iff_toNat]
      simp only [Char.reduceToNat]
      omega
    rw [image, isDigit_ofNat_of_le least, capital]

theorem lowerChar_of_isDigit {c : Char} (h : c.isDigit = true) : lowerChar c = c := by
  rcases lowerChar_cases c with same | ⟨first, -⟩
  · exact same
  · rw [Char.isDigit_iff_toNat] at h
    simp only [Char.reduceToNat] at h
    omega

theorem lowerImage_of_isDigit {afterLetter : Bool} {c : Char} {rest : List Char}
    (h : c.isDigit = true) : lowerImage afterLetter c rest = [c] := by
  have notSigma : c ≠ 'Σ' := by rintro rfl; exact absurd h (by decide)
  have notDotted : c ≠ 'İ' := by rintro rfl; exact absurd h (by decide)
  rw [lowerImage, if_neg notSigma, if_neg notDotted, lowerChar_of_isDigit h]

theorem isDigit_of_mem_lowerImage {afterLetter : Bool} {c x : Char} {rest : List Char}
    (hc : c.isDigit = false) (h : x ∈ lowerImage afterLetter c rest) : x.isDigit = false := by
  unfold lowerImage at h
  split_ifs at h
  · rw [List.mem_singleton.mp h]; decide
  · rw [List.mem_singleton.mp h]; decide
  · simp only [List.mem_cons, List.not_mem_nil, or_false] at h
    rcases h with rfl | rfl <;> decide
  · rw [List.mem_singleton.mp h, isDigit_lowerChar, hc]

theorem lowerImage_ne_nil (afterLetter : Bool) (c : Char) (rest : List Char) :
    lowerImage afterLetter c rest ≠ [] := by
  unfold lowerImage
  split_ifs <;> exact List.cons_ne_nil _ _

section Runs

variable {run s : List Char} {afterLetter : Bool} (digits : ∀ c ∈ run, c.isDigit = true)

include digits

theorem not_isPrefix_cons {c : Char} (h : c.isDigit = false) (ne : run ≠ []) :
    ¬ run <+: c :: s := by
  intro start
  obtain ⟨d, run, rfl⟩ := List.exists_cons_of_ne_nil ne
  have digit := digits d List.mem_cons_self
  rw [(List.cons_prefix_cons.mp start).1, h] at digit
  contradiction

theorem infix_of_infix_append {others : List Char} (h : ∀ c ∈ others, c.isDigit = false)
    (ne : run ≠ []) (inside : run <:+: others ++ s) : run <:+: s := by
  induction others with
  | nil => exact inside
  | cons c others ih =>
    rcases List.infix_cons_iff.mp inside with start | later
    · exact absurd start (not_isPrefix_cons digits (h c List.mem_cons_self) ne)
    · exact ih (fun x hx => h x (List.mem_cons_of_mem _ hx)) later

theorem prefix_of_prefix_lowerFrom (h : run <+: lowerFrom afterLetter s) : run <+: s := by
  induction s generalizing run afterLetter with
  | nil => simpa [lowerFrom] using h
  | cons c s ih =>
    cases run with
    | nil => exact List.nil_prefix
    | cons d run =>
      rw [lowerFrom_cons] at h
      cases hc : c.isDigit with
      | true =>
        rw [lowerImage_of_isDigit hc, List.singleton_append, List.cons_prefix_cons] at h
        obtain ⟨rfl, h⟩ := h
        exact List.cons_prefix_cons.mpr
          ⟨rfl, ih (fun x hx => digits x (List.mem_cons_of_mem _ hx)) h⟩
      | false =>
        obtain ⟨x, image, hx⟩ :=
          List.exists_cons_of_ne_nil (lowerImage_ne_nil afterLetter c s)
        have other := isDigit_of_mem_lowerImage hc (hx ▸ List.mem_cons_self)
        rw [hx] at h
        exact absurd h (not_isPrefix_cons digits other (List.cons_ne_nil _ _))

theorem infix_of_infix_lowerFrom (h : run <:+: lowerFrom afterLetter s) : run <:+: s := by
  by_cases none : run = []
  · exact none ▸ List.nil_infix
  · induction s generalizing afterLetter with
    | nil => simpa [lowerFrom] using h
    | cons c s ih =>
      cases hc : c.isDigit with
      | true =>
        have whole := h
        rw [lowerFrom_cons, lowerImage_of_isDigit hc, List.singleton_append,
          List.infix_cons_iff] at h
        rcases h with start | later
        · rw [← List.singleton_append, ← lowerImage_of_isDigit hc, ← lowerFrom_cons] at start
          exact (prefix_of_prefix_lowerFrom digits start).isInfix
        · exact List.infix_cons (ih later)
      | false =>
        rw [lowerFrom_cons] at h
        exact List.infix_cons
          (ih (infix_of_infix_append digits (fun _ => isDigit_of_mem_lowerImage hc) none h))

theorem infix_of_infix_lower (h : run <:+: lower s) : run <:+: s :=
  infix_of_infix_lowerFrom digits h

end Runs

end DiceRoller.Text
