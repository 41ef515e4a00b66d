import DiceRoller.Proofs.Settings.PlainNumerals

/-!
# What stands around a numeral

The outer parts of a written integer: leading zeros with underscores among them, space on both
sides, and a sign.
-/

namespace DiceRoller.Settings

section Zeros

/-- Leading zeros with the underscores among them and after them. -/
structure IsLead (lead : List Char) : Prop where
  parts : ∀ c ∈ lead, isZeroPart c = true
  head : lead.head? ≠ some '_'

theorem IsLead.of_append {lead : List Char} {c : Char}
    (parts : ∀ x ∈ lead ++ [c], isZeroPart x = true) (head : (lead ++ [c]).head? = some '0') :
    IsLead lead where
  parts x hx := parts x (List.mem_append_left [c] hx)
  head := by
    cases lead with
    | nil => exact nofun
    | cons first lead => rw [List.cons_append, List.head?_cons] at head; simp_all

section Cases

variable {s zeros rest : List Char} {c : Char} (hzeros : s.takeWhile isZeroPart = zeros)
  (hrest : s.dropWhile isZeroPart = rest)

include hzeros hrest

theorem dropZeros?_of_no_zeros (lacking : zeros = []) (next : rest.head? = some c) :
    dropZeros? s = if c.isDigit then some rest else none := by
  unfold dropZeros?
  rw [hzeros, hrest, lacking]
  dsimp only
  rw [next]
  rfl

theorem dropZeros?_of_zeros (starts : zeros.head? = some '0') (next : rest.head? = some c) :
    dropZeros? s = if c.isDigit || c == '-' then some rest
      else if c == '.' && zeros.getLast? == some '0' then some ('0' :: rest) else none := by
  unfold dropZeros?
  rw [hzeros, hrest]
  dsimp only
  rw [starts, next]
  rfl

theorem dropZeros?_of_zeros_alone (starts : zeros.head? = some '0') (last : rest = []) :
    dropZeros? s = if zeros.getLast? == some '0' then some ['0'] else none := by
  unfold dropZeros?
  rw [hzeros, hrest, last]
  dsimp only
  rw [starts]
  rfl

theorem dropZeros?_of_underscore (starts : zeros.head? = some '_') : dropZeros? s = none := by
  unfold dropZeros?
  rw [hzeros, hrest]
  dsimp only
  rw [starts]
  cases rest <;> rfl

end Cases

theorem exists_of_dropZeros? {s rest : List Char} (h : dropZeros? s = some rest) :
    ∃ lead, lead ++ rest = s ∧ IsLead lead ∧ (rest.head? = some '-' → lead ≠ []) := by
  have whole := List.takeWhile_append_dropWhile (p := isZeroPart) (l := s)
  have parts := List.all_eq_true.mp (List.all_takeWhile (l := s) (p := isZeroPart))
  generalize hzeros : s.takeWhile isZeroPart = zeros at whole parts
  generalize hrest : s.dropWhile isZeroPart = after at whole
  -- Where no digit comes after them, the last of the zeros is the number.
  have last (ends : zeros.getLast? = some '0') (starts : zeros.head? = some '0') :
      ∃ lead, lead ++ '0' :: after = s ∧ IsLead lead := by
    obtain ⟨lead, rfl⟩ := List.getLast?_eq_some_iff.mp ends
    exact ⟨lead, by rw [← whole, List.append_assoc]; rfl, .of_append parts starts⟩
  cases zeros with
  | nil =>
    cases after with
    | nil =>
      rw [← whole] at h
      cases h
    | cons c after =>
      rw [dropZeros?_of_no_zeros hzeros hrest rfl rfl, Option.ite_none_right_eq_some] at h
      obtain ⟨digit, ⟨⟩⟩ := h
      refine ⟨[], whole, ⟨by simp, by simp⟩, fun minus => ?_⟩
      rw [Option.some.inj minus] at digit
      exact absurd digit (by decide)
  | cons zero zeros =>
    have first := parts zero List.mem_cons_self
    rw [isZeroPart, Bool.or_eq_true, beq_iff_eq, beq_iff_eq] at first
    rcases first with rfl | rfl
    · cases after with
      | nil =>
        rw [dropZeros?_of_zeros_alone hzeros hrest rfl rfl, Option.ite_none_right_eq_some,
          beq_iff_eq] at h
        obtain ⟨ends, ⟨⟩⟩ := h
        obtain ⟨lead, text, isLead⟩ := last ends rfl
        exact ⟨lead, text, isLead, by simp⟩
      | cons c after =>
        rw [dropZeros?_of_zeros hzeros hrest rfl rfl] at h
        split at h
        · obtain rfl := Option.some.inj h
          exact ⟨'0' :: zeros, whole, ⟨parts, by simp⟩, fun _ => List.cons_ne_nil _ _⟩
        · rw [Option.ite_none_right_eq_some, Bool.and_eq_true, beq_iff_eq, beq_iff_eq] at h
          obtain ⟨⟨-, ends⟩, ⟨⟩⟩ := h
          obtain ⟨lead, text, isLead⟩ := last ends rfl
          exact ⟨lead, text, isLead, by simp⟩
    · rw [dropZeros?_of_underscore hzeros hrest rfl] at h
      cases h

theorem IsLead.head_eq {lead : List Char} (h : IsLead lead) (ne : lead ≠ []) :
    lead.head? = some '0' := by
  obtain ⟨first, lead, rfl⟩ := List.exists_cons_of_ne_nil ne
  have part := h.parts first List.mem_cons_self
  have head := h.head
  simp only [isZeroPart, Bool.or_eq_true, beq_iff_eq] at part
  simp only [List.head?_cons, ne_eq, Option.some.injEq] at head ⊢
  exact part.resolve_right head

section Append

variable {lead : List Char} (h : IsLead lead)

include h

theorem dropZeros?_append_cons {c : Char} (rest : List Char) (other : isZeroPart c = false)
    (starts : c.isDigit = true ∨ c = '-' ∧ lead ≠ []) :
    dropZeros? (lead ++ c :: rest) = some (c :: rest) := by
  have stops : ∀ first ∈ (c :: rest).head?, isZeroPart first = false :=
    fun first hfirst => Option.some.inj hfirst ▸ other
  have front : (lead ++ c :: rest).takeWhile isZeroPart = lead :=
    Text.takeWhile_append_of_stops h.parts stops
  have back : (lead ++ c :: rest).dropWhile isZeroPart = c :: rest :=
    Text.dropWhile_append_of_stops h.parts stops
  by_cases ne : lead = []
  · have digit := starts.resolve_right fun minus => minus.2 ne
    rw [dropZeros?_of_no_zeros front back ne rfl, if_pos digit]
  · have allowed : (c.isDigit || c == '-') = true := by
      rw [Bool.or_eq_true, beq_iff_eq]
      exact starts.imp_right And.left
    rw [dropZeros?_of_zeros front back (h.head_eq ne) rfl, if_pos allowed]

theorem dropZeros?_append_zero (zeros : Nat) :
    dropZeros? (lead ++ '0' :: fraction zeros) = some ('0' :: fraction zeros) := by
  have parts : ∀ c ∈ lead ++ ['0'], isZeroPart c = true := by
    intro c hc
    rcases List.mem_append.mp hc with front | last
    · exact h.parts c front
    · rw [List.mem_singleton.mp last]
      rfl
  have starts : (lead ++ ['0']).head? = some '0' := by
    by_cases ne : lead = []
    · rw [ne, List.nil_append, List.head?_cons]
    · rw [List.head?_append, h.head_eq ne, Option.some_or]
  have last : ((lead ++ ['0']).getLast? == some '0') = true :=
    beq_iff_eq.mpr List.getLast?_concat
  rw [List.append_cons]
  cases zeros with
  | zero =>
    rw [fraction, if_pos rfl, List.append_nil, dropZeros?_of_zeros_alone
      (List.takeWhile_eq_self_iff.mpr parts) (List.dropWhile_eq_nil_iff.mpr parts) starts rfl,
      if_pos last]
  | succ zeros =>
    have stops : ∀ c ∈ ('.' :: List.replicate (zeros + 1) '0').head?, isZeroPart c = false :=
      fun c hc => Option.some.inj hc ▸ by decide
    have front := Text.takeWhile_append_of_stops parts stops
    have back := Text.dropWhile_append_of_stops parts stops
    rw [fraction, if_neg (Nat.succ_ne_zero zeros), dropZeros?_of_zeros front back starts rfl,
      if_neg (by decide), last]
    rfl

end Append

end Zeros

section Space

theorem isSpace_eq_false {c : Char} (h : 0x20 < c.toNat ∧ c.toNat < 0x7F) : isSpace c = false := by
  rw [isSpace, Bool.eq_false_iff, ne_eq, Text.Ranges.holds_eq_true_iff]
  rintro ⟨range, hrange, first, last⟩
  simp only [spaceRanges, List.mem_cons, List.not_mem_nil, or_false] at hrange
  rcases hrange with rfl | rfl | rfl | rfl | rfl | rfl | rfl | rfl | rfl | rfl <;> omega

theorem isSpace_of_isDigit {c : Char} (h : c.isDigit = true) : isSpace c = false := by
  have digit := Char.isDigit_iff_toNat.mp h
  exact isSpace_eq_false (by simp only [Char.reduceToNat] at digit; omega)

theorem isDigit_of_isSpace {c : Char} (h : isSpace c = true) : c.isDigit = false := by
  by_contra digit
  simp [isSpace_of_isDigit (Bool.not_eq_false _ ▸ digit)] at h

theorem exists_trimSpace (s : List Char) :
    ∃ before after, before ++ trimSpace s ++ after = s ∧
      ∀ c ∈ before ++ after, isSpace c = true := by
  have front := List.takeWhile_append_dropWhile (p := isSpace) (l := s)
  have back := congrArg List.reverse
    (List.takeWhile_append_dropWhile (p := isSpace) (l := (s.dropWhile isSpace).reverse))
  rw [List.reverse_append, List.reverse_reverse] at back
  refine ⟨s.takeWhile isSpace, ((s.dropWhile isSpace).reverse.takeWhile isSpace).reverse, ?_, ?_⟩
  · rw [trimSpace, List.append_assoc, back, front]
  · intro c hc
    rcases List.mem_append.mp hc with before | after
    · exact List.all_eq_true.mp List.all_takeWhile c before
    · exact List.all_eq_true.mp List.all_takeWhile c (List.mem_reverse.mp after)

theorem dropWhile_isSpace_append {space body : List Char} (h : ∀ c ∈ space, isSpace c = true)
    (rest : List Char) (ne : body ≠ []) (head : ∀ c ∈ body.head?, isSpace c = false) :
    (space ++ (body ++ rest)).dropWhile isSpace = body ++ rest := by
  refine Text.dropWhile_append_of_stops h ?_
  rwa [List.head?_append_of_ne_nil _ ne]

theorem trimSpace_append {before body after : List Char}
    (space : ∀ c ∈ before ++ after, isSpace c = true) (ne : body ≠ [])
    (head : ∀ c ∈ body.head?, isSpace c = false)
    (last : ∀ c ∈ body.getLast?, isSpace c = false) :
    trimSpace (before ++ body ++ after) = body := by
  have front : ∀ c ∈ before, isSpace c = true := fun c hc => space c (List.mem_append_left _ hc)
  have back : ∀ c ∈ after.reverse, isSpace c = true := fun c hc =>
    space c (List.mem_append_right _ (List.mem_reverse.mp hc))
  have start := dropWhile_isSpace_append front after ne head
  have ending := dropWhile_isSpace_append back [] (List.reverse_ne_nil_iff.mpr ne)
    (by rwa [List.head?_reverse])
  rw [List.append_nil] at ending
  rw [trimSpace, List.append_assoc, start, List.reverse_append, ending, List.reverse_reverse]

end Space

section Mark

inductive Mark
  | none
  | plus
  | minus
  deriving DecidableEq, Repr

def Mark.chars : Mark → List Char
  | .none => []
  | .plus => ['+']
  | .minus => ['-']

theorem exists_splitSign (s : List Char) :
    ∃ mark : Mark, mark.chars ++ (splitSign s).2 = s ∧
      (splitSign s).1 = decide (mark = .minus) := by
  unfold splitSign
  split
  · exact ⟨.minus, rfl, rfl⟩
  · exact ⟨.plus, rfl, rfl⟩
  · exact ⟨.none, rfl, rfl⟩

theorem splitSign_append (mark : Mark) {s : List Char} {c : Char} (head : s.head? = some c)
    (digit : c.isDigit = true) :
    splitSign (mark.chars ++ s) = (decide (mark = .minus), s) := by
  cases mark with
  | minus => rfl
  | plus => rfl
  | none =>
    obtain ⟨rest, rfl⟩ := List.head?_eq_some_iff.mp head
    simp only [Mark.chars, List.nil_append]
    unfold splitSign
    split
    · rename_i eq
      rw [(List.cons_eq_cons.mp eq).1] at digit
      exact absurd digit (by decide)
    · rename_i eq
      rw [(List.cons_eq_cons.mp eq).1] at digit
      exact absurd digit (by decide)
    · rfl

end Mark

end DiceRoller.Settings
