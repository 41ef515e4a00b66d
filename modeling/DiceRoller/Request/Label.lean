import DiceRoller.Text.Blank

/-!
# Labels

A line may open with a label and a colon. The colon that ends a label has no backslash before
it and blanks after it, and no line break may come before it, or after those blanks other
than as the last character. A colon inside a label is written with a backslash before it.
-/

namespace DiceRoller.Request

def onlyFinalBreak (s : List Char) : Bool := !s.dropLast.contains '\n'

/-- Whether a colon before these characters can end a label. -/
def endsLabel : List Char → Bool
  | [] => false
  | c :: s => Text.isBlank c && onlyFinalBreak (s.dropWhile Text.isBlank)

/-- The texts before and after the first colon that ends a label. -/
def cutAtLabel (escaped : Bool) : List Char → Option (List Char × List Char)
  | [] => none
  | c :: s =>
    if c = ':' ∧ ¬ escaped ∧ endsLabel s then some ([], s)
    else if c = '\n' then none
    else (cutAtLabel (c == '\\') s).map fun cut => (c :: cut.1, cut.2)

theorem cutAtLabel_eq_some {escaped : Bool} {s label rest : List Char}
    (h : cutAtLabel escaped s = some (label, rest)) :
    s = label ++ ':' :: rest ∧ endsLabel rest ∧ '\n' ∉ label := by
  induction s generalizing escaped label with
  | nil => simp [cutAtLabel] at h
  | cons c s ih =>
    unfold cutAtLabel at h
    split at h
    · rename_i found
      simp only [Option.some.injEq, Prod.mk.injEq] at h
      obtain ⟨rfl, rfl⟩ := h
      exact ⟨by rw [found.1]; rfl, found.2.2, by simp⟩
    · split at h
      · simp at h
      · rename_i hc
        obtain ⟨cut, hcut, he⟩ := Option.map_eq_some_iff.mp h
        simp only [Prod.mk.injEq] at he
        obtain ⟨rfl, rfl⟩ := he
        obtain ⟨hs, ends, free⟩ := ih hcut
        refine ⟨by rw [hs]; rfl, ends, ?_⟩
        simp only [List.mem_cons, not_or]
        exact ⟨fun e => hc e.symm, free⟩

def unescapeColons : List Char → List Char
  | '\\' :: ':' :: s => ':' :: unescapeColons s
  | c :: s => c :: unescapeColons s
  | [] => []

def labelOf (s : List Char) : Option (List Char) :=
  match Text.trim (unescapeColons s) with
  | [] => none
  | label => some label

/-- The label of a text, if it has one that is not blank, and the rest. A text in which no
label ends is left as it is. -/
def splitLabelChars (s : List Char) : Option (List Char) × List Char :=
  match cutAtLabel false s with
  | some (label, rest) => (labelOf label, Text.trim rest)
  | none => (none, s)

def splitLabel (text : String) : Option String × String :=
  let split := splitLabelChars text.toList
  (split.1.map String.ofList, String.ofList split.2)

end DiceRoller.Request
