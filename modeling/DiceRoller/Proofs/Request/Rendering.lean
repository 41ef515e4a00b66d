import DiceRoller.Proofs.Request.Escaping
import DiceRoller.Request.Line

/-!
# Rendered lines

The lines that a request can have are written with a colon after the label and with commas
between the expressions. Reading the text gives the same lines (`lines_renderLines`).
-/

namespace DiceRoller.Request

/-- What a line can be that was read. -/
structure Line.WellFormed (line : Line) : Prop where
  label : ∀ label ∈ line.label, Text.IsPiece ['\n'] label.toList
  expressions_ne_nil : line.expressions ≠ []
  expressions : ∀ e ∈ line.expressions, Text.IsPiece [',', '\n'] e.toList

instance (line : Line) : Decidable line.WellFormed :=
  decidable_of_iff ((∀ label ∈ line.label, Text.IsPiece ['\n'] label.toList) ∧
      line.expressions ≠ [] ∧ ∀ e ∈ line.expressions, Text.IsPiece [',', '\n'] e.toList)
    ⟨fun ⟨label, ne, each⟩ => ⟨label, ne, each⟩,
      fun h => ⟨h.label, h.expressions_ne_nil, h.expressions⟩⟩

def Line.render (line : Line) : String :=
  String.ofList (escapeColons (line.label.getD "").toList) ++ " : " ++
    ", ".intercalate line.expressions

def renderLines (ls : List Line) : String := "\n".intercalate (ls.map Line.render)

theorem wellFormed_ofChars {s : List Char} (free : '\n' ∉ s)
    (ne : (Line.ofChars s).expressions ≠ []) : (Line.ofChars s).WellFormed where
  label label hlabel := by
    obtain ⟨l, hl, rfl⟩ := Option.map_eq_some_iff.mp hlabel
    rw [String.toList_ofList]
    unfold splitLabelChars at hl
    split at hl
    · rename_i before rest cut
      obtain ⟨rfl, nonempty⟩ := labelOf_eq_some hl
      refine ⟨nonempty, Text.trim_trim _, ?_⟩
      intro c hc mem
      obtain rfl := List.mem_singleton.mp hc
      exact (cutAtLabel_eq_some cut).2.2 (mem_of_mem_unescapeColons (Text.mem_of_mem_trim mem))
    · cases hl
  expressions_ne_nil := ne
  expressions e he := by
    obtain ⟨p, hp, rfl⟩ := List.mem_map.mp he
    rw [String.toList_ofList]
    apply Text.isPiece_of_mem_pieces ?_ hp
    intro c hc mem
    obtain rfl := List.mem_singleton.mp hc
    exact free (mem_of_mem_splitLabelChars mem)

section Joining

/-- The blanks after the commas can be seen as the first characters of the parts. -/
theorem joined_eq (e : List Char) (es : List (List Char)) :
    [',', ' '].intercalate (e :: es) = [','].intercalate (e :: es.map (' ' :: ·)) := by
  induction es generalizing e with
  | nil => rfl
  | cons e' es ih =>
    rw [List.intercalate_cons_cons, ih, List.map_cons, List.intercalate_cons_cons]
    cases es <;> simp [List.intercalate_cons_cons]

theorem isPiece_joined {es : List (List Char)} (ne : es ≠ [])
    (h : ∀ e ∈ es, Text.IsPiece [',', '\n'] e) :
    Text.IsPiece ['\n'] ([',', ' '].intercalate es) := by
  induction es with
  | nil => exact absurd rfl ne
  | cons e es ih =>
    have first := (h e List.mem_cons_self).mono (List.subset_cons_self ',' ['\n'])
    cases es with
    | nil => simpa using first
    | cons e' es =>
      rw [List.intercalate_cons_cons]
      exact first.append_append [',', ' '] (by simp)
        (ih (List.cons_ne_nil e' es) fun x hx => h x (List.mem_cons_of_mem _ hx))

theorem splitExpressionChars_joined {es : List (List Char)}
    (h : ∀ e ∈ es, Text.IsPiece [',', '\n'] e) :
    splitExpressionChars ([',', ' '].intercalate es) = es := by
  cases es with
  | nil => rfl
  | cons e es =>
    have first := h e List.mem_cons_self
    have others : ∀ x ∈ es, Text.IsPiece [',', '\n'] x := by
      intro x hx
      exact h x (List.mem_cons_of_mem e hx)
    have trims : ∀ x ∈ es, Text.trim (' ' :: x) = x := by
      intro x hx
      rw [Text.trim_cons_of_isBlank x (by decide), (others x hx).trimmed]
    rw [joined_eq]
    refine (Text.pieces_intercalate ?_).trans ?_
    · intro part hpart
      rcases List.mem_cons.mp hpart with rfl | hpart
      · exact ⟨first.free ',' List.mem_cons_self, first.trimmed.symm ▸ first.ne_nil⟩
      · obtain ⟨x, hx, rfl⟩ := List.mem_map.mp hpart
        refine ⟨?_, (trims x hx).symm ▸ (others x hx).ne_nil⟩
        exact List.not_mem_cons_of_ne_of_not_mem (by decide)
          ((others x hx).free ',' List.mem_cons_self)
    · rw [List.map_cons, first.trimmed, List.map_map]
      exact congrArg (e :: ·) ((List.map_congr_left trims).trans (List.map_id es))

end Joining

theorem Line.toList_render (line : Line) :
    line.render.toList = escapeColons (line.label.getD "").toList ++ [' ', ':', ' '] ++
      [',', ' '].intercalate (line.expressions.map String.toList) := by
  rw [render, String.toList_append, String.toList_append, String.toList_ofList,
    String.toList_intercalate]
  rfl

section WellFormed

variable {line : Line} (h : line.WellFormed)

include h

theorem Line.WellFormed.isPiece_of_mem :
    ∀ e ∈ line.expressions.map String.toList, Text.IsPiece [',', '\n'] e := by
  intro e he
  obtain ⟨text, htext, rfl⟩ := List.mem_map.mp he
  exact h.expressions text htext

theorem Line.WellFormed.isPiece_joined :
    Text.IsPiece ['\n'] ([',', ' '].intercalate (line.expressions.map String.toList)) :=
  Request.isPiece_joined (by simpa using h.expressions_ne_nil) h.isPiece_of_mem

/-- The line comes back from a text in which both of its parts are found. -/
theorem Line.WellFormed.ofChars_of_cut {s : List Char} (before : List Char)
    (cut : cutAtLabel false s = some (before, ' ' ::
      [',', ' '].intercalate (line.expressions.map String.toList)))
    (label : labelOf before = line.label.map String.toList) : Line.ofChars s = line := by
  rw [Line.ofChars, splitLabelChars_of_cut cut, Text.trim_cons_of_isBlank _ (by decide),
    h.isPiece_joined.trimmed, splitExpressionChars_joined h.isPiece_of_mem, label]
  simp [Function.comp_def]

/-- A rendered line without a label still starts with the colon once it is trimmed. -/
theorem Line.WellFormed.read_render : ∃ s, Text.trim line.render.toList = s ∧
    Text.IsPiece ['\n'] s ∧ '\n' ∉ line.render.toList ∧ Line.ofChars s = line := by
  have joined := h.isPiece_joined
  have free : '\n' ∉ [',', ' '].intercalate (line.expressions.map String.toList) :=
    joined.free '\n' (by simp)
  have ends := endsLabel_of_not_mem (c := ' ') (by decide) free
  rw [line.toList_render]
  cases label : line.label with
  | none =>
    have colon : Text.IsPiece ['\n'] [':'] := by decide
    have piece := colon.append_append [' '] (by simp) joined
    refine ⟨_, ?_, piece, ?_, h.ofChars_of_cut [] ?_ ?_⟩
    · exact (Text.trim_cons_of_isBlank _ (by decide)).trans piece.trimmed
    · exact List.not_mem_cons_of_ne_of_not_mem (by decide) (piece.free '\n' (by simp))
    · simp [cutAtLabel, ends]
    · rw [label]
      rfl
  | some text =>
    have hlabel := h.label text label
    have piece := (isPiece_escapeColons hlabel).append_append [' ', ':', ' '] (by simp) joined
    refine ⟨_, piece.trimmed, piece, piece.free '\n' (by simp),
      h.ofChars_of_cut (escapeColons text.toList ++ [' ']) ?_ ?_⟩
    · rw [List.append_assoc]
      exact cutAtLabel_escapeColons false (hlabel.free '\n' (by simp)) ends
    · rw [label]
      exact labelOf_escapeColons hlabel

end WellFormed

theorem wellFormed_of_mem_lines {text : String} {line : Line} (h : line ∈ lines text) :
    line.WellFormed := by
  obtain ⟨hread, nonempty⟩ := List.mem_filter.mp h
  obtain ⟨s, hs, rfl⟩ := List.mem_map.mp hread
  have piece := Text.isPiece_of_mem_pieces (fun _ => List.not_mem_nil.elim) hs
  exact wellFormed_ofChars (piece.free '\n' (by simp)) (by simpa using nonempty)

/-- A text without separators is a line of one expression. -/
theorem lines_of_isPiece {text : String} (h : Text.IsPiece [',', ':', '\n'] text.toList) :
    lines text = [⟨none, [text]⟩] := by
  have whole : splitLabelChars text.toList = (none, text.toList) := by
    unfold splitLabelChars
    split
    · rename_i label rest cut
      have colon : ':' ∈ text.toList := by
        rw [(cutAtLabel_eq_some cut).1]
        simp
      exact absurd colon (h.free ':' (by simp))
    · rfl
  have expressions : splitExpressionChars text.toList = [text.toList] :=
    Text.pieces_of_isPiece h (by simp)
  have line : Line.ofChars text.toList = ⟨none, [text]⟩ := by
    simp [Line.ofChars, whole, expressions]
  have cut : ((text.toList.splitOn '\n').map Text.trim).filter (!·.isEmpty) = [text.toList] :=
    Text.pieces_of_isPiece h (by simp)
  rw [lines, linesOfChars, cut, List.map_singleton, line]
  rfl

theorem lines_renderLines {ls : List Line} (h : ∀ line ∈ ls, line.WellFormed) :
    lines (renderLines ls) = ls := by
  have parts : ∀ part ∈ (ls.map Line.render).map String.toList,
      '\n' ∉ part ∧ Text.trim part ≠ [] := by
    intro part hpart
    obtain ⟨text, htext, rfl⟩ := List.mem_map.mp hpart
    obtain ⟨line, hline, rfl⟩ := List.mem_map.mp htext
    obtain ⟨s, rfl, piece, free, -⟩ := (h line hline).read_render
    exact ⟨free, piece.ne_nil⟩
  have read : ∀ line ∈ ls, Line.ofChars (Text.trim line.render.toList) = line := by
    intro line hline
    obtain ⟨s, rfl, -, -, hread⟩ := (h line hline).read_render
    exact hread
  have whole : (Text.pieces '\n' (renderLines ls).toList).map Line.ofChars = ls := by
    rw [renderLines, String.toList_intercalate]
    change (Text.pieces '\n' (['\n'].intercalate _)).map _ = ls
    rw [Text.pieces_intercalate parts, List.map_map, List.map_map, List.map_map]
    exact (List.map_congr_left read).trans (List.map_id ls)
  have kept : ls.filter (!·.expressions.isEmpty) = ls := by
    apply List.filter_eq_self.mpr
    intro line hline
    simpa using (h line hline).expressions_ne_nil
  exact (congrArg _ whole).trans kept

/-- Reading has well-formed lines as its results, all of them, and undoes their rendering. -/
theorem lines_wellFormed_round_trip :
    (∀ text, ∀ line ∈ lines text, line.WellFormed) ∧
    ∀ ls : List Line, (∀ line ∈ ls, line.WellFormed) → lines (renderLines ls) = ls := by
  constructor
  · intro text line h
    exact wellFormed_of_mem_lines h
  · intro ls h
    exact lines_renderLines h

theorem lines_three_labels :
    let ls : List Line := [⟨some "to: hit\\", ["d20+5", "a: b"]⟩, ⟨some "fire, \\: ice", ["8d6"]⟩,
      ⟨none, ["d: 6", "\\"]⟩]
    (∀ line ∈ ls, line.WellFormed) ∧ renderLines ls =
      "to\\: hit\\ : d20+5, a: b\nfire, \\\\: ice : 8d6\n : d: 6, \\" ∧
      lines (renderLines ls) = ls := by
  intro ls
  have wellFormed : ∀ line ∈ ls, line.WellFormed := by decide +kernel
  exact ⟨wellFormed, by decide +kernel, lines_wellFormed_round_trip.2 ls wellFormed⟩

end DiceRoller.Request
