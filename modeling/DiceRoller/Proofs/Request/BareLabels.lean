import DiceRoller.Proofs.Request.Composition
import DiceRoller.Proofs.Request.LabelEnds

/-!
# Labels with nothing to roll

A line is trimmed before its label is looked for. So a label with only blanks and commas after
it leaves no line where a comma keeps the blank after the colon. Where no comma does, the blank
goes and the label with it, and the colon stays behind in an expression
(`lines_of_label_alone`).
-/

namespace DiceRoller.Request

/-- No label ends inside the first text, and the second, which comes after a colon, starts with a
blank and holds blanks and commas alone. -/
structure NothingToRoll (label rest : List Char) : Prop where
  unbroken : '\n' ∉ label ∧ '\n' ∉ rest
  inside : ∀ i < label.length, ¬ LabelEndsAt label i
  bare : label.getLast? ≠ some '\\'
  spaced : rest[0]?.any Text.isBlank = true
  empty : ∀ c ∈ rest, Text.isBlank c = true ∨ c = ','

instance (label rest : List Char) : Decidable (NothingToRoll label rest) :=
  decidable_of_iff (('\n' ∉ label ∧ '\n' ∉ rest) ∧ (∀ i < label.length, ¬ LabelEndsAt label i) ∧
      label.getLast? ≠ some '\\' ∧ rest[0]?.any Text.isBlank = true ∧
      rest.all (fun c => Text.isBlank c || c == ',') = true)
    ⟨fun ⟨unbroken, inside, bare, spaced, empty⟩ =>
      ⟨unbroken, inside, bare, spaced, by simpa using empty⟩,
      fun h => ⟨h.unbroken, h.inside, h.bare, h.spaced, by simpa using h.empty⟩⟩

section Colons

variable {s t : List Char} {i : Nat}

/-- In a text of one line nothing but its own neighbours decides on a colon. -/
theorem labelEndsAt_of_unbroken (unbroken : '\n' ∉ s) (colon : s[i]? = some ':')
    (bare : i = 0 ∨ s[i - 1]? ≠ some '\\') (spaced : s[i + 1]?.any Text.isBlank = true) :
    LabelEndsAt s i where
  colon := colon
  unbroken mem := unbroken (List.mem_of_mem_take mem)
  bare := bare
  spaced := spaced
  lastLine mem :=
    unbroken (List.mem_of_mem_drop ((List.dropWhile_sublist _).mem (List.dropLast_subset _ mem)))

/-- A colon before another one ends a label only where it does so in the text up to that one. -/
theorem LabelEndsAt.of_append_colon (h : LabelEndsAt (s ++ ':' :: t) i) (inside : i < s.length)
    (unbroken : '\n' ∉ s) : LabelEndsAt s i := by
  apply labelEndsAt_of_unbroken unbroken
  · simpa only [List.getElem?_append_left inside] using h.colon
  · simpa only [List.getElem?_append_left (Nat.lt_of_le_of_lt (Nat.sub_le i 1) inside)] using h.bare
  · have spaced := h.spaced
    by_cases last : i + 1 < s.length
    · rwa [List.getElem?_append_left last] at spaced
    · have colon : (s ++ ':' :: t)[i + 1]? = some ':' := by
        rw [List.getElem?_append_right (by omega), show i + 1 - s.length = 0 by omega]
        rfl
      rw [colon] at spaced
      exact absurd spaced (by decide)

theorem exists_labelEndsAt_of_trimStart (unbroken : '\n' ∉ s)
    (h : LabelEndsAt (Text.trimStart s) i) : ∃ j, LabelEndsAt s j := by
  induction s with
  | nil => exact ⟨i, h⟩
  | cons c s ih =>
    by_cases blank : Text.isBlank c = true
    · obtain ⟨newline, unbroken⟩ := List.ne_and_not_mem_of_not_mem_cons unbroken
      rw [Text.trimStart, List.dropWhile_cons_of_pos blank] at h
      obtain ⟨j, later⟩ := ih unbroken h
      refine ⟨j + 1, labelEndsAt_succ.mpr ⟨newline.symm, ?_, later⟩⟩
      rintro - rfl
      exact absurd blank (by decide)
    · rw [Text.trimStart, List.dropWhile_cons_of_neg blank] at h
      exact ⟨i, h⟩

end Colons

/-- A text of one line is read as one line, or as none if no expression is in it. -/
theorem linesOfChars_of_unbroken {s : List Char} (unbroken : '\n' ∉ s) (filled : Text.trim s ≠ []) :
    linesOfChars s = [Line.ofChars (Text.trim s)].filter (!·.expressions.isEmpty) := by
  have alone : ∀ part ∈ [s], '\n' ∉ part ∧ Text.trim part ≠ [] := by
    simp [unbroken, filled]
  have cut : Text.pieces '\n' s = [Text.trim s] := by
    simpa using Text.pieces_intercalate alone
  exact congrArg (fun parts => (parts.map Line.ofChars).filter (!·.expressions.isEmpty)) cut

theorem lines_intercalate (parts : List String) :
    lines ("\n".intercalate parts) = parts.flatMap lines := by
  induction parts with
  | nil => rfl
  | cons part parts ih =>
    cases parts with
    | nil => simp
    | cons next parts =>
      rw [String.intercalate_cons_cons, lines_append, ih]
      rfl

theorem roll_of_lines_eq {a b : String} (settings : Settings) (h : lines a = lines b) :
    roll settings a = roll settings b := by
  rw [roll, roll, h]

namespace NothingToRoll

variable {label rest : List Char} (h : NothingToRoll label rest)

include h

/-- The blanks before the label make no difference to its colons. -/
theorem not_labelEndsAt {i : Nat} (inside : i < (Text.trimStart label).length) (t : List Char) :
    ¬ LabelEndsAt (Text.trimStart label ++ ':' :: t) i := by
  intro ends
  have unbroken : '\n' ∉ Text.trimStart label := fun mem =>
    h.unbroken.1 ((List.dropWhile_sublist _).mem mem)
  obtain ⟨j, found⟩ := exists_labelEndsAt_of_trimStart h.unbroken.1
    (ends.of_append_colon inside unbroken)
  obtain ⟨within, -⟩ := List.getElem?_eq_some_iff.mp found.colon
  exact h.inside j within found

/-- The comma keeps the blank after the colon. -/
theorem trimEnd_spaced (comma : ',' ∈ rest) :
    (Text.trimEnd rest)[0]?.any Text.isBlank = true := by
  obtain ⟨blanks, others, rfl⟩ := List.append_of_mem comma
  rw [Text.trimEnd_append_cons blanks others (by decide)]
  have spaced := h.spaced
  cases blanks with
  | nil =>
    have blank : Text.isBlank ',' = true := spaced
    exact absurd blank (by decide)
  | cons c blanks => exact spaced

theorem bare_trimStart (t : List Char) : (Text.trimStart label).length = 0 ∨
    (Text.trimStart label ++ ':' :: t)[(Text.trimStart label).length - 1]? ≠ some '\\' := by
  by_cases empty : Text.trimStart label = []
  · exact Or.inl (List.length_eq_zero_iff.mpr empty)
  · right
    obtain ⟨blanks, whole⟩ : Text.trimStart label <:+ label := List.dropWhile_suffix _
    have bare := h.bare
    rw [← whole, List.getLast?_append_of_ne_nil _ empty] at bare
    have pos := List.length_pos_iff.mpr empty
    rwa [List.getElem?_append_left (by omega), ← List.getLast?_eq_getElem?]

/-- With a comma the label is found, and nothing behind it is an expression. -/
theorem lines_of_comma (comma : ',' ∈ rest) : linesOfChars (label ++ ':' :: rest) = [] := by
  have unbroken : '\n' ∉ label ++ ':' :: rest := by simp [h.unbroken]
  have trimmed := Text.trim_append_cons (c := ':') label rest (by decide)
  have ends : LabelEndsAt (Text.trimStart label ++ ':' :: Text.trimEnd rest)
      (Text.trimStart label).length := by
    apply labelEndsAt_of_unbroken
    · exact trimmed ▸ fun mem => unbroken (Text.mem_of_mem_trim mem)
    · simp
    · exact h.bare_trimStart _
    · rw [List.getElem?_append_right (Nat.le_add_right _ 1), Nat.add_sub_cancel_left]
      exact h.trimEnd_spaced comma
  have cut := cutAtLabel_of_first ends (fun _ => rfl) fun j hj earlier =>
    absurd earlier (h.not_labelEndsAt hj _)
  have nothing : splitExpressionChars (Text.trim (Text.trimEnd rest)) = [] := by
    apply Text.pieces_eq_nil_iff.mpr
    intro c hc
    exact h.empty c ((Text.isPrefix_trimEnd rest).subset (Text.mem_of_mem_trim hc))
  rw [linesOfChars_of_unbroken unbroken (by simp [trimmed]), trimmed, Line.ofChars,
    splitLabelChars_of_cut cut]
  simp [nothing]

/-- Without a comma no label is found, and the colon is left to the last expression. -/
theorem lines_of_no_comma (comma : ',' ∉ rest) : linesOfChars (label ++ ':' :: rest) =
    [⟨none, (splitExpressionChars (label ++ [':'])).map String.ofList⟩] := by
  have unbroken : '\n' ∉ label ++ ':' :: rest := by simp [h.unbroken]
  have blanks : ∀ c ∈ rest, Text.isBlank c = true := by
    intro c hc
    refine (h.empty c hc).resolve_right ?_
    rintro rfl
    exact comma hc
  have trimmed : Text.trim (label ++ ':' :: rest) = Text.trimStart label ++ [':'] := by
    rw [List.append_cons, Text.trim_append_blanks _ blanks]
    exact Text.trim_append_cons label [] (by decide)
  have never : cutAtLabel false (Text.trimStart label ++ [':']) = none := by
    apply cutAtLabel_eq_none
    intro i ends
    by_cases inside : i < (Text.trimStart label).length
    · exact absurd ends (h.not_labelEndsAt inside [])
    · have spaced := ends.spaced
      rw [List.getElem?_eq_none (by simp; omega)] at spaced
      exact absurd spaced Bool.false_ne_true
  have expressions : splitExpressionChars (Text.trimStart label ++ [':']) =
      splitExpressionChars (label ++ [':']) := by
    rw [← Text.trimStart_append_cons label [] (by decide)]
    exact Text.pieces_trimStart (by decide) _
  have filled : splitExpressionChars (label ++ [':']) ≠ [] := by
    intro none
    have colon := Text.pieces_eq_nil_iff.mp none ':' (by simp)
    exact absurd colon (by decide)
  rw [linesOfChars_of_unbroken unbroken (by simp [trimmed]), trimmed, Line.ofChars,
    splitLabelChars, never]
  simp [expressions, filled]

end NothingToRoll

/-- A label with blanks and at least one comma after it gives no line, so that a request is rolled
as it is without it. With blanks alone after it, it gives a line of its own, in which the colon is
part of an expression. -/
theorem lines_of_label_alone {label rest : String}
    (h : NothingToRoll label.toList rest.toList) :
    (',' ∈ rest.toList → lines (label ++ ":" ++ rest) = [] ∧
      ∀ {σ : Type} [DiceSource σ] (settings : Settings) (above below : List String) (tray : Tray σ),
        (roll settings ("\n".intercalate (above ++ (label ++ ":" ++ rest) :: below))).run tray =
          (roll settings ("\n".intercalate (above ++ below))).run tray) ∧
    (',' ∉ rest.toList →
      lines (label ++ ":" ++ rest) = [⟨none, splitExpressions (label ++ ":")⟩]) := by
  have whole : (label ++ ":" ++ rest).toList = label.toList ++ ':' :: rest.toList := by simp
  constructor
  · intro comma
    have none : lines (label ++ ":" ++ rest) = [] := by
      rw [lines, whole, h.lines_of_comma comma]
    refine ⟨none, ?_⟩
    intro σ _ settings above below tray
    rw [roll_of_lines_eq settings]
    simp [lines_intercalate, none]
  · intro comma
    rw [lines, whole, h.lines_of_no_comma comma]
    simp [splitExpressions]

theorem lines_of_label_alone_before_comma :
    let line := "to\\: hit" ++ ":" ++ "\u3000, ,"
    NothingToRoll "to\\: hit".toList "\u3000, ,".toList ∧ ',' ∈ "\u3000, ,".toList ∧
      lines line = [] ∧ ∀ tray : Tray Seeded,
        (roll {} ("\n".intercalate ["1d6", line, "2d6"])).run tray =
          (roll {} ("\n".intercalate ["1d6", "2d6"])).run tray := by
  intro line
  have nothing : NothingToRoll "to\\: hit".toList "\u3000, ,".toList := by decide +kernel
  have comma : ',' ∈ "\u3000, ,".toList := by decide
  obtain ⟨none, alike⟩ := (lines_of_label_alone nothing).1 comma
  exact ⟨nothing, comma, none, alike {} ["1d6"] ["2d6"]⟩

/-- Only blanks after the label: the request is not rolled as it is without the line. -/
theorem lines_of_label_alone_before_blank :
    let refused := Result.failed "attack:" (Expression.Flaw.noDice.fault "attack:")
    NothingToRoll "Attack".toList " ".toList ∧ lines "Attack: " = [⟨none, ["Attack:"]⟩] ∧
      ∀ tray : Tray Seeded,
        ((roll {} "Attack: ").run tray).ending = .finished [⟨none, [refused]⟩] ∧
        ((roll {} "").run tray).ending = .finished [] := by
  intro refused
  have nothing : NothingToRoll "Attack".toList " ".toList := by decide +kernel
  have kept : lines "Attack: " = [⟨none, ["Attack:"]⟩] := by decide +kernel
  have quoted : Expression.canonical "Attack:" = "attack:" := by decide +kernel
  have failed : Expression.read ({} : Settings).maxDice "Attack:" =
      .error (.fault (Expression.Flaw.noDice.fault "attack:")) := by decide +kernel
  have silent : (roll {} "Attack: ").silent = pure [⟨none, [refused]⟩] := by
    rw [silent_roll, silent_rollLines, kept, List.mapM_cons, silent_rollLine_alone failed, quoted]
    rfl
  exact ⟨nothing, kept, fun tray => ⟨Roll.ending_of_silent_eq_pure silent tray, rfl⟩⟩

end DiceRoller.Request
