import DiceRoller.Text.Blank
import Mathlib.Data.List.DropRight

/-!
# Trimmed texts

A text is its own trimming when no blank stands at either end (`trim_eq_self_iff`), and every
trimming is. Trimming takes a piece out of the middle of a text and makes nothing new.
-/

namespace DiceRoller.Text

section Stretch

variable {p : Char → Bool} {front rest : List Char} (inside : ∀ c ∈ front, p c = true)
  (stops : ∀ c ∈ rest.head?, p c = false)

include inside stops

theorem takeWhile_append_of_stops : (front ++ rest).takeWhile p = front := by
  rw [List.takeWhile_append_of_pos inside]
  cases rest with
  | nil => rw [List.takeWhile_nil, List.append_nil]
  | cons c rest =>
    rw [List.takeWhile_cons_of_neg (Bool.eq_false_iff.mp (stops c rfl)), List.append_nil]

theorem dropWhile_append_of_stops : (front ++ rest).dropWhile p = rest := by
  rw [List.dropWhile_append_of_pos inside]
  cases rest with
  | nil => exact List.dropWhile_nil
  | cons c rest => exact List.dropWhile_cons_of_neg (Bool.eq_false_iff.mp (stops c rfl))

end Stretch

theorem isPrefix_trimEnd (s : List Char) : trimEnd s <+: s := List.rdropWhile_prefix _ _

theorem trim_prefix_trimStart (s : List Char) : trim s <+: trimStart s := isPrefix_trimEnd _

theorem isInfix_trim (s : List Char) : trim s <:+: s :=
  (trim_prefix_trimStart s).isInfix.trans (List.dropWhile_suffix _).isInfix

theorem mem_of_mem_trim {s : List Char} {c : Char} (h : c ∈ trim s) : c ∈ s :=
  (isInfix_trim s).subset h

theorem isBlank_head_trim {s : List Char} {c : Char} (h : c ∈ (trim s).head?) :
    isBlank c = false := by
  have stops := List.head?_dropWhile_not isBlank s
  have front : c ∈ (trimStart s).head? := by
    obtain ⟨t, ht⟩ := trim_prefix_trimStart s
    rw [← ht, List.head?_append, Option.mem_def.mp h]
    rfl
  rw [trimStart, Option.mem_def] at front
  simpa [front] using stops

theorem isBlank_getLast_trim {s : List Char} {c : Char} (h : c ∈ (trim s).getLast?) :
    isBlank c = false := by
  have stops := List.head?_dropWhile_not isBlank (trimStart s).reverse
  rw [trim, trimEnd, List.getLast?_reverse, Option.mem_def] at h
  simpa [h] using stops

theorem trim_eq_self_iff {s : List Char} :
    trim s = s ↔ (∀ c ∈ s.head?, isBlank c = false) ∧ ∀ c ∈ s.getLast?, isBlank c = false := by
  constructor
  · intro h
    exact ⟨fun c hc => isBlank_head_trim (h.symm ▸ hc),
      fun c hc => isBlank_getLast_trim (h.symm ▸ hc)⟩
  · rintro ⟨front, back⟩
    rw [trim, trimStart_eq_self_iff.mpr front, trimEnd_eq_self_iff.mpr back]

theorem trim_trim (s : List Char) : trim (trim s) = trim s :=
  trim_eq_self_iff.mpr ⟨fun _ => isBlank_head_trim, fun _ => isBlank_getLast_trim⟩

/-- What stands between two texts without outer blanks is never trimmed. -/
theorem trim_append_append {front back : List Char} (middle : List Char) (hf : front ≠ [])
    (hb : back ≠ []) (head : ∀ c ∈ front.head?, isBlank c = false)
    (last : ∀ c ∈ back.getLast?, isBlank c = false) :
    trim (front ++ middle ++ back) = front ++ middle ++ back := by
  refine trim_eq_self_iff.mpr ⟨?_, ?_⟩
  · rwa [List.append_assoc, List.head?_append_of_ne_nil _ hf]
  · rwa [List.getLast?_append_of_ne_nil _ hb]

theorem trim_cons_of_isBlank {c : Char} (s : List Char) (h : isBlank c = true) :
    trim (c :: s) = trim s := by
  rw [trim, trimStart, List.dropWhile_cons_of_pos h]
  rfl

theorem trim_append_of_isBlank {c : Char} (s : List Char) (h : isBlank c = true) :
    trim (s ++ [c]) = trim s := by
  rw [trim, trim, trimStart, trimStart, List.dropWhile_append]
  cases rest : s.dropWhile isBlank with
  | nil => simp [trimEnd, h]
  | cons d s =>
    rw [List.isEmpty_cons, if_neg Bool.false_ne_true, trimEnd, List.reverse_append,
      List.reverse_singleton, List.singleton_append, List.dropWhile_cons_of_pos h]
    rfl

theorem trim_blanks_append {blanks : List Char} (s : List Char)
    (h : ∀ c ∈ blanks, isBlank c = true) : trim (blanks ++ s) = trim s := by
  induction blanks with
  | nil => rfl
  | cons c blanks ih =>
    rw [List.cons_append, trim_cons_of_isBlank _ (h c List.mem_cons_self)]
    exact ih fun x hx => h x (List.mem_cons_of_mem c hx)

theorem trim_append_blanks {blanks : List Char} (s : List Char)
    (h : ∀ c ∈ blanks, isBlank c = true) : trim (s ++ blanks) = trim s := by
  induction blanks generalizing s with
  | nil => rw [List.append_nil]
  | cons c blanks ih =>
    rw [List.append_cons, ih _ fun x hx => h x (List.mem_cons_of_mem c hx)]
    exact trim_append_of_isBlank s (h c List.mem_cons_self)

theorem trimStart_append_cons {c : Char} (s t : List Char) (h : isBlank c = false) :
    trimStart (s ++ c :: t) = trimStart s ++ c :: t := by
  rw [trimStart, trimStart, List.dropWhile_append]
  cases s.dropWhile isBlank <;> simp [h]

theorem trimEnd_append_cons {c : Char} (s t : List Char) (h : isBlank c = false) :
    trimEnd (s ++ c :: t) = s ++ c :: trimEnd t := by
  have front := trimStart_append_cons t.reverse s.reverse h
  have mirrored : (s ++ c :: t).reverse = t.reverse ++ c :: s.reverse := by simp
  rw [trimStart, trimStart, ← mirrored] at front
  rw [trimEnd, front, trimEnd]
  simp

/-- Trimming goes no further than to a character that is no blank, from either side. -/
theorem trim_append_cons {c : Char} (s t : List Char) (h : isBlank c = false) :
    trim (s ++ c :: t) = trimStart s ++ c :: trimEnd t := by
  rw [trim, trimStart_append_cons s t h, trimEnd_append_cons _ t h]

theorem trim_eq_nil_iff {s : List Char} : trim s = [] ↔ ∀ c ∈ s, isBlank c = true := by
  constructor
  · intro none c hc
    by_contra filled
    obtain ⟨front, back, rfl⟩ := List.append_of_mem hc
    rw [trim_append_cons front back (Bool.eq_false_iff.mpr filled)] at none
    simp at none
  · intro blanks
    exact trim_append_blanks [] blanks

theorem trimStart_map {f : Char → Char} (same : ∀ c, isBlank (f c) = isBlank c) (s : List Char) :
    trimStart (s.map f) = (trimStart s).map f := by
  have blanks : isBlank ∘ f = isBlank := funext same
  rw [trimStart, List.dropWhile_map, blanks, trimStart]

theorem trimEnd_map {f : Char → Char} (same : ∀ c, isBlank (f c) = isBlank c) (s : List Char) :
    trimEnd (s.map f) = (trimEnd s).map f := by
  have mirrored := trimStart_map same s.reverse
  rw [trimStart, trimStart] at mirrored
  rw [trimEnd, trimEnd, ← List.map_reverse, mirrored, List.map_reverse]

theorem trim_map {f : Char → Char} (same : ∀ c, isBlank (f c) = isBlank c) (s : List Char) :
    trim (s.map f) = (trim s).map f := by
  rw [trim, trim, trimStart_map same, trimEnd_map same]

theorem trim_of_no_blank {s : List Char} (h : ∀ c ∈ s, isBlank c = false) : trim s = s :=
  trim_eq_self_iff.mpr
    ⟨fun c hc => h c (List.mem_of_mem_head? hc), fun c hc => h c (List.mem_of_getLast? hc)⟩

end DiceRoller.Text
