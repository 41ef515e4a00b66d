import DiceRoller.Text.Blank

/-!
# Lines of environment files

Moving along a line: over the blanks in it, over the word `export` at its front, over a
comment, and to its end. No step leaves more text than it was given.
-/

namespace DiceRoller.EnvFile

/-- A file may start with one byte order mark. -/
def skipByteOrderMark : List Char → List Char
  | '\ufeff' :: s => s
  | s => s

/-- All line ends become line feeds. -/
def unifyLineEnds : List Char → List Char
  | '\r' :: '\n' :: s => '\n' :: unifyLineEnds s
  | '\r' :: s => '\n' :: unifyLineEnds s
  | c :: s => c :: unifyLineEnds s
  | [] => []

def isInnerBlank (c : Char) : Bool := Text.isBlank c && c != '\n'

def skipInner (s : List Char) : List Char := s.dropWhile isInnerBlank

def lineRest (s : List Char) : List Char := s.takeWhile (· != '\n')

def fromLineEnd (s : List Char) : List Char := s.dropWhile (· != '\n')

def skipLine (s : List Char) : List Char := (fromLineEnd s).drop 1

def skipExport (s : List Char) : List Char :=
  match s with
  | 'e' :: 'x' :: 'p' :: 'o' :: 'r' :: 't' :: c :: rest =>
    if isInnerBlank c then skipInner rest else s
  | _ => s

/-- What comes before a comment, that is before a `#` with a blank before it. -/
def beforeComment (afterBlank : Bool) : List Char → List Char
  | [] => []
  | c :: s => if c = '#' ∧ afterBlank then [] else c :: beforeComment (Text.isBlank c) s

/-- Skips a comment, if there is one. -/
def skipComment (s : List Char) : List Char :=
  match skipInner s with
  | '#' :: t => fromLineEnd t
  | _ => s

theorem skipInner_length_le (s : List Char) : (skipInner s).length ≤ s.length :=
  (List.dropWhile_sublist _).length_le

theorem fromLineEnd_length_le (s : List Char) : (fromLineEnd s).length ≤ s.length :=
  (List.dropWhile_sublist _).length_le

theorem skipLine_length_le (s : List Char) : (skipLine s).length ≤ s.length := by
  have := fromLineEnd_length_le s
  simp only [skipLine, List.length_drop]
  omega

theorem skipLine_length_lt {s : List Char} (h : s ≠ []) : (skipLine s).length < s.length := by
  have := fromLineEnd_length_le s
  have := List.length_pos_iff.mpr h
  simp only [skipLine, List.length_drop]
  omega

theorem skipExport_eq_or_length_lt (s : List Char) :
    skipExport s = s ∨ (skipExport s).length < s.length := by
  unfold skipExport
  split
  · rename_i c rest
    split
    · have := skipInner_length_le rest
      simp only [List.length_cons]
      omega
    · exact Or.inl rfl
  · exact Or.inl rfl

theorem skipComment_length_le (s : List Char) : (skipComment s).length ≤ s.length := by
  have inner := skipInner_length_le s
  unfold skipComment
  split
  · rename_i t heq
    have := fromLineEnd_length_le t
    rw [heq] at inner
    simp only [List.length_cons] at inner
    omega
  · exact Nat.le_refl _

end DiceRoller.EnvFile
