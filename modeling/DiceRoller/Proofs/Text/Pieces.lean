import DiceRoller.Proofs.Text.Trimming

/-!
# Pieces of a text

A text is cut at a separator, the parts are trimmed, and the blank ones are left out. What
remains are pieces, and pieces written with the separator between them are found again
(`pieces_intercalate`), whatever blanks stand around them.
-/

namespace DiceRoller.Text

/-- A text that is not blank, has no blanks around it and none of the characters in `ends`. -/
structure IsPiece (ends s : List Char) : Prop where
  ne_nil : s ≠ []
  trimmed : trim s = s
  free : ∀ c ∈ ends, c ∉ s

instance (ends s : List Char) : Decidable (IsPiece ends s) :=
  decidable_of_iff (s.isEmpty = false ∧ trim s = s ∧ (ends.all fun c => !s.contains c) = true) <| by
    constructor
    · rintro ⟨ne, trimmed, free⟩
      exact ⟨by simpa using ne, trimmed, by simpa using free⟩
    · intro h
      exact ⟨by simpa using h.ne_nil, h.trimmed, by simpa using h.free⟩

theorem IsPiece.mono {ends ends' s : List Char} (h : IsPiece ends s) (sub : ends' ⊆ ends) :
    IsPiece ends' s :=
  ⟨h.ne_nil, h.trimmed, fun c hc => h.free c (sub hc)⟩

theorem IsPiece.append_append {ends front back : List Char} (hf : IsPiece ends front)
    (middle : List Char) (hm : ∀ c ∈ ends, c ∉ middle) (hb : IsPiece ends back) :
    IsPiece ends (front ++ middle ++ back) where
  ne_nil := by simp [hf.ne_nil]
  trimmed := trim_append_append middle hf.ne_nil hb.ne_nil (trim_eq_self_iff.mp hf.trimmed).1
    (trim_eq_self_iff.mp hb.trimmed).2
  free c hc := by
    simp only [List.mem_append, not_or]
    exact ⟨⟨hf.free c hc, hm c hc⟩, hb.free c hc⟩

theorem ne_and_mem_of_mem_splitOn {sep c : Char} {s part : List Char} (h : part ∈ s.splitOn sep)
    (hc : c ∈ part) : c ≠ sep ∧ c ∈ s := by
  induction s generalizing part with
  | nil =>
    rw [List.splitOn_nil, List.mem_singleton] at h
    rw [h] at hc
    contradiction
  | cons d s ih =>
    have later {p : List Char} (hp : p ∈ s.splitOn sep) (hc : c ∈ p) : c ≠ sep ∧ c ∈ d :: s :=
      ⟨(ih hp hc).1, List.mem_cons_of_mem d (ih hp hc).2⟩
    obtain ⟨first, others, split⟩ := List.exists_cons_of_ne_nil (List.splitOn_ne_nil sep s)
    rw [List.splitOn_cons_eq_if_modifyHead, split] at h
    by_cases ends : d = sep
    · rw [if_pos (beq_iff_eq.mpr ends), ← split] at h
      rcases List.mem_cons.mp h with rfl | h
      · contradiction
      · exact later h hc
    · rw [if_neg (by simpa using ends), List.modifyHead_cons] at h
      rcases List.mem_cons.mp h with rfl | h
      · rcases List.mem_cons.mp hc with rfl | hc
        · exact ⟨ends, List.mem_cons_self⟩
        · exact later (split ▸ List.mem_cons_self) hc
      · exact later (split ▸ List.mem_cons_of_mem first h) hc

theorem exists_mem_splitOn {sep c : Char} {s : List Char} (h : c ∈ s) (ne : c ≠ sep) :
    ∃ part ∈ s.splitOn sep, c ∈ part := by
  induction s with
  | nil => cases h
  | cons d s ih =>
    obtain ⟨first, others, split⟩ := List.exists_cons_of_ne_nil (List.splitOn_ne_nil sep s)
    rw [List.splitOn_cons_eq_if_modifyHead]
    by_cases ends : d = sep
    · rw [if_pos (beq_iff_eq.mpr ends)]
      have later := (List.mem_cons.mp h).resolve_left fun same => ne (same.trans ends)
      obtain ⟨part, hpart, hc⟩ := ih later
      exact ⟨part, List.mem_cons_of_mem _ hpart, hc⟩
    · rw [if_neg (by simpa using ends), split, List.modifyHead_cons]
      rcases List.mem_cons.mp h with rfl | later
      · exact ⟨c :: first, List.mem_cons_self, List.mem_cons_self⟩
      · obtain ⟨part, hpart, hc⟩ := ih later
        rcases List.mem_cons.mp (split ▸ hpart) with rfl | hpart
        · exact ⟨d :: part, List.mem_cons_self, List.mem_cons_of_mem d hc⟩
        · exact ⟨part, List.mem_cons_of_mem _ hpart, hc⟩

def pieces (sep : Char) (s : List Char) : List (List Char) :=
  ((s.splitOn sep).map trim).filter (!·.isEmpty)

/-- Blanks and separators alone have no pieces. -/
theorem pieces_eq_nil_iff {sep : Char} {s : List Char} :
    pieces sep s = [] ↔ ∀ c ∈ s, isBlank c = true ∨ c = sep := by
  rw [pieces, List.filter_eq_nil_iff, List.forall_mem_map]
  constructor
  · intro none c hc
    by_cases ends : c = sep
    · exact Or.inr ends
    · obtain ⟨part, hpart, mem⟩ := exists_mem_splitOn hc ends
      have trimmed : trim part = [] := by simpa using none part hpart
      exact Or.inl (trim_eq_nil_iff.mp trimmed c mem)
  · intro all part hpart
    have blanks : trim part = [] := by
      rw [trim_eq_nil_iff]
      intro c hc
      obtain ⟨ne, mem⟩ := ne_and_mem_of_mem_splitOn hpart hc
      exact (all c mem).resolve_right ne
    simp [blanks]

theorem pieces_trimStart {sep : Char} (h : isBlank sep = false) (s : List Char) :
    pieces sep (trimStart s) = pieces sep s := by
  induction s with
  | nil => rfl
  | cons c s ih =>
    by_cases blank : isBlank c = true
    · have other : c ≠ sep := by
        rintro rfl
        exact Bool.false_ne_true (h.symm.trans blank)
      obtain ⟨first, others, split⟩ := List.exists_cons_of_ne_nil (List.splitOn_ne_nil sep s)
      rw [trimStart, List.dropWhile_cons_of_pos blank, ← trimStart, ih, pieces, pieces,
        List.splitOn_cons_eq_if_modifyHead, if_neg (by simpa using other), split,
        List.modifyHead_cons, List.map_cons, List.map_cons, trim_cons_of_isBlank first blank]
    · rw [trimStart, List.dropWhile_cons_of_neg blank]

theorem infix_of_mem_intercalate {sep p : List Char} {parts : List (List Char)} (h : p ∈ parts) :
    p <:+: sep.intercalate parts := by
  induction parts with
  | nil => contradiction
  | cons q parts ih =>
    cases parts with
    | nil =>
      rw [List.mem_singleton] at h
      simp [h]
    | cons r parts =>
      rw [List.intercalate_cons_cons]
      rcases List.mem_cons.mp h with rfl | h
      · rw [List.append_assoc]
        exact (List.prefix_append _ _).isInfix
      · exact (ih h).trans (List.suffix_append _ _).isInfix

theorem infix_of_mem_pieces {sep : Char} {s p : List Char} (h : p ∈ pieces sep s) : p <:+: s := by
  obtain ⟨part, hpart, rfl⟩ := List.mem_map.mp (List.mem_filter.mp h).1
  have inside : part <:+: [sep].intercalate (s.splitOn sep) := infix_of_mem_intercalate hpart
  rw [List.intercalate_splitOn] at inside
  exact (isInfix_trim part).trans inside

theorem isPiece_of_mem_pieces {sep : Char} {ends s p : List Char} (free : ∀ c ∈ ends, c ∉ s)
    (h : p ∈ pieces sep s) : IsPiece (sep :: ends) p := by
  obtain ⟨cut, nonempty⟩ := List.mem_filter.mp h
  obtain ⟨part, hpart, rfl⟩ := List.mem_map.mp cut
  refine ⟨by simpa using nonempty, trim_trim part, ?_⟩
  intro c hc mem
  have part := ne_and_mem_of_mem_splitOn hpart (mem_of_mem_trim mem)
  rcases List.mem_cons.mp hc with rfl | hc
  · exact part.1 rfl
  · exact free c hc part.2

theorem pieces_intercalate {sep : Char} {parts : List (List Char)}
    (h : ∀ part ∈ parts, sep ∉ part ∧ trim part ≠ []) :
    pieces sep ([sep].intercalate parts) = parts.map trim := by
  by_cases empty : parts = []
  · subst empty
    rfl
  · rw [pieces, List.splitOn_intercalate sep (fun part hp => (h part hp).1) empty]
    apply List.filter_eq_self.mpr
    intro p hp
    obtain ⟨part, hpart, rfl⟩ := List.mem_map.mp hp
    simpa using (h part hpart).2

/-- A piece is its own only piece where no separator is in it. -/
theorem pieces_of_isPiece {sep : Char} {ends s : List Char} (h : IsPiece ends s)
    (hsep : sep ∈ ends) :
    pieces sep s = [s] := by
  have alone : ∀ part ∈ [s], sep ∉ part ∧ trim part ≠ [] := by
    intro part hpart
    rw [List.mem_singleton.mp hpart, h.trimmed]
    exact ⟨h.free sep hsep, h.ne_nil⟩
  have cut := pieces_intercalate alone
  rwa [List.intercalate_singleton, List.map_singleton, h.trimmed] at cut

end DiceRoller.Text
