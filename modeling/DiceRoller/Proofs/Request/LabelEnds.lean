import DiceRoller.Proofs.Request.Escaping

/-!
# Where a label ends

A label ends at the first colon that can end it, and which colons can is said of their places
in the whole text (`LabelEndsAt`). A line break after the blanks rules a colon out, so that the
one taken need not be the first with a blank after it. In a text of one line it is
(`splitLabel_at_first_end`).
-/

namespace DiceRoller.Request

/-- The character at this place is a colon at which a label can end. -/
structure LabelEndsAt (s : List Char) (i : Nat) : Prop where
  colon : s[i]? = some ':'
  unbroken : '\n' ∉ s.take i
  bare : i = 0 ∨ s[i - 1]? ≠ some '\\'
  spaced : s[i + 1]?.any Text.isBlank = true
  lastLine : '\n' ∉ (Text.trimStart (s.drop (i + 1))).dropLast

instance (s : List Char) (i : Nat) : Decidable (LabelEndsAt s i) :=
  decidable_of_iff (s[i]? = some ':' ∧ '\n' ∉ s.take i ∧ (i = 0 ∨ s[i - 1]? ≠ some '\\') ∧
      s[i + 1]?.any Text.isBlank = true ∧ '\n' ∉ (Text.trimStart (s.drop (i + 1))).dropLast)
    ⟨fun ⟨colon, unbroken, bare, spaced, lastLine⟩ => ⟨colon, unbroken, bare, spaced, lastLine⟩,
      fun h => ⟨h.colon, h.unbroken, h.bare, h.spaced, h.lastLine⟩⟩

/-- The second text is the first with a colon for each backslash and colon. -/
def Unescaped (s t : List Char) : Prop :=
  ∃ parts : List (List Char), ['\\', ':'].intercalate parts = s ∧
    (∀ part ∈ parts, ¬ ['\\', ':'] <:+: part) ∧ [':'].intercalate parts = t

section Places

variable {c : Char} {s : List Char} {i : Nat}

theorem endsLabel_iff : endsLabel s = true ↔
    s[0]?.any Text.isBlank = true ∧ '\n' ∉ (Text.trimStart s).dropLast := by
  cases s with
  | nil => simp [endsLabel]
  | cons c s =>
    rw [endsLabel, Bool.and_eq_true]
    refine and_congr_right fun blank => ?_
    rw [Text.trimStart, List.dropWhile_cons_of_pos blank]
    simp [onlyFinalBreak]

theorem labelEndsAt_zero : LabelEndsAt (c :: s) 0 ↔ c = ':' ∧ endsLabel s = true := by
  rw [endsLabel_iff]
  constructor
  · intro h
    exact ⟨Option.some.inj h.colon, h.spaced, h.lastLine⟩
  · rintro ⟨rfl, spaced, lastLine⟩
    exact ⟨rfl, List.not_mem_nil, Or.inl rfl, spaced, lastLine⟩

theorem labelEndsAt_succ :
    LabelEndsAt (c :: s) (i + 1) ↔ c ≠ '\n' ∧ (i = 0 → c ≠ '\\') ∧ LabelEndsAt s i := by
  constructor
  · intro h
    obtain ⟨hc, unbroken⟩ := List.ne_and_not_mem_of_not_mem_cons h.unbroken
    refine ⟨hc.symm, ?_, h.colon, unbroken, ?_, h.spaced, h.lastLine⟩
    · rintro rfl rfl
      exact (h.bare.resolve_left (by simp)) rfl
    · cases i with
      | zero => exact Or.inl rfl
      | succ i => exact Or.inr (h.bare.resolve_left (by simp))
  · rintro ⟨hc, first, h⟩
    refine ⟨h.colon, List.not_mem_cons_of_ne_of_not_mem hc.symm h.unbroken, Or.inr ?_, h.spaced,
      h.lastLine⟩
    cases i with
    | zero => simpa using first rfl
    | succ i => exact h.bare.resolve_left (by simp)

theorem slash_of_not_labelEndsAt (newline : c ≠ '\n') (ends : LabelEndsAt s i)
    (h : ¬ LabelEndsAt (c :: s) (i + 1)) : i = 0 ∧ (c == '\\') = true := by
  rw [labelEndsAt_succ] at h
  simpa [newline, ends] using h

end Places

section Cutting

variable {escaped : Bool} {s : List Char}

/-- A colon at the front that ends no label, or has a backslash before it, is passed over. -/
theorem cutAtLabel_cons {c : Char} (hidden : LabelEndsAt (c :: s) 0 → escaped = true) :
    cutAtLabel escaped (c :: s) = if c = '\n' then none else
      (cutAtLabel (c == '\\') s).map fun cut => (c :: cut.1, cut.2) := by
  rw [cutAtLabel, if_neg]
  rintro ⟨colon, bare, ends⟩
  exact bare (hidden (labelEndsAt_zero.mpr ⟨colon, ends⟩))

/-- The scan knows no more of what it has passed than whether a backslash came last. This can
hide a colon at the front of the rest and no other. -/
theorem cutAtLabel_eq_none (h : ∀ i, LabelEndsAt s i → i = 0 ∧ escaped = true) :
    cutAtLabel escaped s = none := by
  induction s generalizing escaped with
  | nil => rfl
  | cons c s ih =>
    rw [cutAtLabel_cons fun ends => (h 0 ends).2]
    by_cases newline : c = '\n'
    · rw [if_pos newline]
    · rw [if_neg newline, Option.map_eq_none_iff]
      apply ih
      intro i ends
      refine slash_of_not_labelEndsAt newline ends fun later => ?_
      exact Nat.succ_ne_zero i (h (i + 1) later).1

theorem cutAtLabel_of_first {i : Nat} (ends : LabelEndsAt s i) (bare : i = 0 → escaped = false)
    (first : ∀ j < i, LabelEndsAt s j → j = 0 ∧ escaped = true) :
    cutAtLabel escaped s = some (s.take i, s.drop (i + 1)) := by
  induction s generalizing escaped i with
  | nil => cases ends.colon
  | cons c s ih =>
    cases i with
    | zero =>
      obtain ⟨colon, ends⟩ := labelEndsAt_zero.mp ends
      rw [cutAtLabel, if_pos ⟨colon, by simp [bare rfl], ends⟩]
      rfl
    | succ i =>
      obtain ⟨newline, slash, later⟩ := labelEndsAt_succ.mp ends
      have cut : cutAtLabel (c == '\\') s = some (s.take i, s.drop (i + 1)) := by
        apply ih later
        · intro start
          simpa using slash start
        · intro j hj before
          refine slash_of_not_labelEndsAt newline before fun earlier => ?_
          exact Nat.succ_ne_zero j (first (j + 1) (Nat.succ_lt_succ hj) earlier).1
      rw [cutAtLabel_cons fun front => (first 0 (Nat.succ_pos i) front).2, if_neg newline, cut]
      rfl

end Cutting

theorem intercalate_cons_first (sep : List Char) (c : Char) (first : List Char)
    (others : List (List Char)) :
    sep.intercalate ((c :: first) :: others) = c :: sep.intercalate (first :: others) := by
  cases others <;> simp [List.intercalate_cons_cons]

theorem isPrefix_intercalate (sep first : List Char) (others : List (List Char)) :
    first <+: sep.intercalate (first :: others) := by
  cases others with
  | nil => simp
  | cons second others =>
    rw [List.intercalate_cons_cons, List.append_assoc]
    exact List.prefix_append first _

theorem not_pair_isPrefix_cons {c : Char} {first s : List Char}
    (other : ∀ t, c = '\\' → s = ':' :: t → False) (front : first <+: s) :
    ¬ ['\\', ':'] <+: c :: first := by
  obtain ⟨rest, rfl⟩ := front
  rintro ⟨t, pair⟩
  obtain ⟨rfl, rfl⟩ := List.cons.inj pair
  exact other (t ++ rest) rfl rfl

theorem unescaped_unescapeColons (s : List Char) : Unescaped s (unescapeColons s) := by
  -- One part at least, so that a pair at the front has an empty part before it.
  suffices parts : ∃ first others, ['\\', ':'].intercalate (first :: others) = s ∧
      (∀ part ∈ first :: others, ¬ ['\\', ':'] <:+: part) ∧
      [':'].intercalate (first :: others) = unescapeColons s by
    obtain ⟨first, others, whole⟩ := parts
    exact ⟨first :: others, whole⟩
  fun_induction unescapeColons s with
  | case1 s ih =>
    obtain ⟨first, others, same, free, made⟩ := ih
    refine ⟨[], first :: others, ?_, ?_, ?_⟩
    · rw [List.intercalate_cons_cons, same]
      rfl
    · exact List.forall_mem_cons.mpr ⟨by simp, free⟩
    · rw [List.intercalate_cons_cons, made]
      rfl
  | case2 c s other ih =>
    obtain ⟨first, others, same, free, made⟩ := ih
    obtain ⟨inFirst, inOthers⟩ := List.forall_mem_cons.mp free
    refine ⟨c :: first, others, ?_, ?_, ?_⟩
    · rw [intercalate_cons_first, same]
    · refine List.forall_mem_cons.mpr ⟨?_, inOthers⟩
      rw [List.infix_cons_iff, not_or]
      exact ⟨not_pair_isPrefix_cons other (same ▸ isPrefix_intercalate _ first others), inFirst⟩
    · rw [intercalate_cons_first, made]
  | case3 => exact ⟨[], [], rfl, by simp, rfl⟩

theorem unescapeColons_append {part rest : List Char} (free : ¬ ['\\', ':'] <:+: part)
    (h : rest.head? ≠ some ':') : unescapeColons (part ++ rest) = part ++ unescapeColons rest := by
  induction part with
  | nil => rfl
  | cons c part ih =>
    rw [List.infix_cons_iff, not_or] at free
    rw [List.cons_append, List.cons_append, ← ih free.2]
    apply unescapeColons_cons
    rintro rfl
    cases part with
    | nil => exact h
    | cons d part =>
      intro colon
      obtain rfl : d = ':' := by simpa using colon
      exact free.1 ⟨part, rfl⟩

theorem Unescaped.eq_unescapeColons {s t : List Char} (h : Unescaped s t) :
    t = unescapeColons s := by
  obtain ⟨parts, rfl, free, rfl⟩ := h
  induction parts with
  | nil => rfl
  | cons part parts ih =>
    obtain ⟨first, others⟩ := List.forall_mem_cons.mp free
    cases parts with
    | nil =>
      have whole : unescapeColons (part ++ []) = part ++ [] := unescapeColons_append first (by simp)
      simpa using whole.symm
    | cons second parts =>
      rw [List.intercalate_cons_cons, List.intercalate_cons_cons, List.append_assoc,
        List.append_assoc, unescapeColons_append first (by simp), ih others]
      rfl

theorem labelOf_eq_ite (s : List Char) :
    labelOf s = if Text.trim (unescapeColons s) = [] then none
      else some (Text.trim (unescapeColons s)) := by
  cases trimmed : Text.trim (unescapeColons s) <;> simp [labelOf, trimmed]

/-- A text in which no label ends is left as it is. Any other is cut at the first colon at which
one can end, and in a text of one line this is the first colon without a backslash before it and
with a blank after it. -/
theorem splitLabel_at_first_end (text : String) :
    ((∀ i, ¬ LabelEndsAt text.toList i) → splitLabel text = (none, text)) ∧
    (∀ i, LabelEndsAt text.toList i → (∀ j < i, ¬ LabelEndsAt text.toList j) →
      (∃! label, Unescaped (text.toList.take i) label) ∧
      ∀ label, Unescaped (text.toList.take i) label → splitLabel text =
        (if Text.trim label = [] then none else some (String.ofList (Text.trim label)),
          String.ofList (Text.trim (text.toList.drop (i + 1))))) ∧
    ('\n' ∉ text.toList → ∀ i, LabelEndsAt text.toList i ↔
      text.toList[i]? = some ':' ∧ (i = 0 ∨ text.toList[i - 1]? ≠ some '\\') ∧
        text.toList[i + 1]?.any Text.isBlank = true) := by
  refine ⟨?_, ?_, ?_⟩
  · intro never
    have cut : cutAtLabel false text.toList = none :=
      cutAtLabel_eq_none fun i ends => absurd ends (never i)
    simp [splitLabel, splitLabelChars, cut]
  · intro i ends first
    have cut : cutAtLabel false text.toList = some (text.toList.take i, text.toList.drop (i + 1)) :=
      cutAtLabel_of_first ends (fun _ => rfl) fun j hj earlier => absurd earlier (first j hj)
    refine ⟨⟨_, unescaped_unescapeColons _, fun _ other => other.eq_unescapeColons⟩, ?_⟩
    intro label parts
    simp only [splitLabel, splitLabelChars, cut, labelOf_eq_ite, parts.eq_unescapeColons]
    split_ifs <;> rfl
  · intro oneLine i
    constructor
    · intro h
      exact ⟨h.colon, h.bare, h.spaced⟩
    · rintro ⟨colon, bare, spaced⟩
      refine ⟨colon, fun mem => oneLine (List.mem_of_mem_take mem), bare, spaced, fun mem => ?_⟩
      have inside := (List.dropWhile_sublist _).mem ((List.dropLast_sublist _).mem mem)
      exact oneLine (List.mem_of_mem_drop inside)

theorem splitLabel_at_third_colon :
    let text := "to\\: hit: 5:\n d6"
    LabelEndsAt text.toList 11 ∧ (∀ j < 11, ¬ LabelEndsAt text.toList j) ∧
      splitLabel text = (some "to: hit: 5", "d6") := by
  intro text
  have ends : LabelEndsAt text.toList 11 := by decide +kernel
  have first : ∀ j < 11, ¬ LabelEndsAt text.toList j := by decide +kernel
  have parts : Unescaped (text.toList.take 11) "to: hit: 5".toList :=
    ⟨["to".toList, " hit: 5".toList], by decide +kernel⟩
  refine ⟨ends, first, ?_⟩
  rw [((splitLabel_at_first_end text).2.1 11 ends first).2 _ parts]
  decide +kernel

end DiceRoller.Request
