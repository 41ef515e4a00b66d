import DiceRoller.Proofs.Text.Pieces
import DiceRoller.Request.Label

/-!
# Escaped labels

With a backslash before each of its colons a label has no colon that could end it, so that it
is cut at the colon written after it (`cutAtLabel_escapeColons`), and unescaping gives it back
(`unescapeColons_escapeColons`).
-/

namespace DiceRoller.Request

def escapeColon (c : Char) : List Char := if c = ':' then ['\\', ':'] else [c]

def escapeColons (s : List Char) : List Char := s.flatMap escapeColon

theorem escapeColons_cons (c : Char) (s : List Char) :
    escapeColons (c :: s) = escapeColon c ++ escapeColons s := List.flatMap_cons

theorem escapeColon_of_ne {c : Char} (h : c ≠ ':') : escapeColon c = [c] := if_neg h

theorem escapeColons_ne_nil {s : List Char} (h : s ≠ []) : escapeColons s ≠ [] := by
  cases s with
  | nil => exact absurd rfl h
  | cons c s =>
    rw [escapeColons_cons, escapeColon]
    split <;> simp

theorem isBlank_head_escapeColons {s : List Char} (h : ∀ c ∈ s.head?, Text.isBlank c = false) :
    ∀ c ∈ (escapeColons s).head?, Text.isBlank c = false := by
  cases s with
  | nil => simp [escapeColons]
  | cons d s =>
    rw [escapeColons_cons]
    by_cases colon : d = ':'
    · subst colon
      intro c hc
      obtain rfl : '\\' = c := by simpa [escapeColon] using hc
      decide
    · simpa [escapeColon_of_ne colon] using h

theorem not_mem_escapeColons {c : Char} {s : List Char} (h : c ∉ s) (slash : c ≠ '\\') :
    c ∉ escapeColons s := by
  intro mem
  obtain ⟨d, hd, hc⟩ := List.mem_flatMap.mp mem
  rw [escapeColon] at hc
  split at hc
  · rename_i colon
    subst colon
    rcases List.mem_pair.mp hc with rfl | rfl
    · exact slash rfl
    · exact h hd
  · exact h (List.mem_singleton.mp hc ▸ hd)

theorem getLast?_escapeColons (s : List Char) : (escapeColons s).getLast? = s.getLast? := by
  rcases List.eq_nil_or_concat s with rfl | ⟨s, c, rfl⟩
  · rfl
  · rw [escapeColons, List.concat_eq_append, List.flatMap_append, List.flatMap_singleton,
      escapeColon]
    split <;> simp [*]

theorem isPiece_escapeColons {s : List Char} (h : Text.IsPiece ['\n'] s) :
    Text.IsPiece ['\n'] (escapeColons s) where
  ne_nil := escapeColons_ne_nil h.ne_nil
  trimmed := by
    obtain ⟨head, last⟩ := Text.trim_eq_self_iff.mp h.trimmed
    refine Text.trim_eq_self_iff.mpr ⟨isBlank_head_escapeColons head, ?_⟩
    rwa [getLast?_escapeColons]
  free c hc := by
    obtain rfl := List.mem_singleton.mp hc
    exact not_mem_escapeColons (h.free _ hc) (by decide)

theorem unescapeColons_cons {c : Char} {s : List Char} (h : c = '\\' → s.head? ≠ some ':') :
    unescapeColons (c :: s) = c :: unescapeColons s := by
  rw [unescapeColons]
  rintro t slash rfl
  exact h slash rfl

theorem mem_of_mem_unescapeColons {c : Char} {s : List Char} (h : c ∈ unescapeColons s) :
    c ∈ s := by
  fun_induction unescapeColons s with
  | case1 s ih =>
    rcases List.mem_cons.mp h with rfl | h
    · simp
    · exact List.mem_cons_of_mem _ (List.mem_cons_of_mem _ (ih h))
  | case2 d s _ ih =>
    rcases List.mem_cons.mp h with rfl | h
    · exact List.mem_cons_self
    · exact List.mem_cons_of_mem _ (ih h)
  | case3 => exact h

/-- No escaped text starts with a colon, and so none is unescaped by a backslash before it. -/
theorem head?_escapeColons_append {s rest : List Char} (h : rest.head? ≠ some ':') :
    (escapeColons s ++ rest).head? ≠ some ':' := by
  cases s with
  | nil => exact h
  | cons c s =>
    rw [escapeColons_cons, escapeColon]
    split <;> simp [*]

theorem unescapeColons_escapeColons (s : List Char) {rest : List Char}
    (h : rest.head? ≠ some ':') :
    unescapeColons (escapeColons s ++ rest) = s ++ unescapeColons rest := by
  induction s with
  | nil => rfl
  | cons c s ih =>
    rw [escapeColons_cons, List.append_assoc, List.cons_append, ← ih]
    by_cases colon : c = ':'
    · subst colon
      rfl
    · rw [escapeColon_of_ne colon]
      apply unescapeColons_cons
      intro slash
      exact head?_escapeColons_append h

/-- A colon with a blank before it ends the label when none of those before it can. -/
theorem cutAtLabel_escapeColons (escaped : Bool) {label rest : List Char} (h : '\n' ∉ label)
    (ends : endsLabel rest) :
    cutAtLabel escaped (escapeColons label ++ ' ' :: ':' :: rest) =
      some (escapeColons label ++ [' '], rest) := by
  induction label generalizing escaped with
  | nil => simp [escapeColons, cutAtLabel, ends]
  | cons c label ih =>
    obtain ⟨hc, free⟩ := List.ne_and_not_mem_of_not_mem_cons h
    rw [escapeColons_cons]
    by_cases colon : c = ':'
    · subst colon
      simp [escapeColon, cutAtLabel, ih _ free]
    · rw [escapeColon_of_ne colon, List.singleton_append, List.cons_append, cutAtLabel,
        if_neg (by simp [colon]), if_neg hc.symm, ih _ free]
      rfl

theorem endsLabel_of_not_mem {c : Char} {s : List Char} (blank : Text.isBlank c = true)
    (free : '\n' ∉ s) : endsLabel (c :: s) = true := by
  have kept : '\n' ∉ (s.dropWhile Text.isBlank).dropLast := by
    intro mem
    exact free ((List.dropWhile_sublist _).subset (List.dropLast_subset _ mem))
  simp [endsLabel, onlyFinalBreak, blank, kept]

theorem labelOf_eq_some {s label : List Char} (h : labelOf s = some label) :
    label = Text.trim (unescapeColons s) ∧ label ≠ [] := by
  unfold labelOf at h
  split at h
  · cases h
  · rename_i nonempty
    obtain rfl := Option.some.inj h
    exact ⟨rfl, nonempty⟩

theorem labelOf_of_ne_nil {s label : List Char} (h : Text.trim (unescapeColons s) = label)
    (ne : label ≠ []) : labelOf s = some label := by
  unfold labelOf
  rw [h]
  cases label with
  | nil => exact absurd rfl ne
  | cons c label => rfl

theorem labelOf_escapeColons {label : List Char} (h : Text.IsPiece ['\n'] label) :
    labelOf (escapeColons label ++ [' ']) = some label := by
  apply labelOf_of_ne_nil ?_ h.ne_nil
  rw [unescapeColons_escapeColons label (by decide)]
  exact (Text.trim_append_of_isBlank label (by decide)).trans h.trimmed

theorem splitLabelChars_of_cut {s label rest : List Char}
    (h : cutAtLabel false s = some (label, rest)) :
    splitLabelChars s = (labelOf label, Text.trim rest) := by
  rw [splitLabelChars, h]

theorem mem_of_mem_splitLabelChars {c : Char} {s : List Char}
    (h : c ∈ (splitLabelChars s).2) : c ∈ s := by
  unfold splitLabelChars at h
  split at h
  · rename_i label rest cut
    rw [(cutAtLabel_eq_some cut).1]
    exact List.mem_append_right _ (List.mem_cons_of_mem _ (Text.mem_of_mem_trim h))
  · exact h

end DiceRoller.Request
