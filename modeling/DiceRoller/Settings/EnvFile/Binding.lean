import DiceRoller.Settings.EnvFile.Line
import DiceRoller.Settings.EnvFile.Quoted

/-!
# Environment files

A file of assignments, one to a line. Names and values may stand in single quotes and values
in double ones, and quoted values may run over lines. A line that cannot be read is skipped
from where reading stopped. A name without an equals sign is assigned no value. By
`binding_length_lt` every line read leaves a shorter text.

This is how the program runs. What is proved of settings rests on less, on what is documented of
a reader of files alone.
-/

namespace DiceRoller.EnvFile

structure Binding where
  name : List Char
  value : Option (List Char)
  deriving DecidableEq, Repr

/-- A part that must not be empty, and what follows it. -/
def nonempty? (part rest : List Char) : Option (List Char × List Char) :=
  if part.isEmpty then none else some (part, rest)

def endsName (c : Char) : Bool := c == '=' || c == '#' || Text.isBlank c

/-- A comment has no name. -/
def name? (s : List Char) : Option (Option (List Char) × List Char) :=
  match s with
  | '#' :: _ => some (none, s)
  | '\x27' :: t =>
    match t.dropWhile (· != '\x27') with
    | _ :: rest => (nonempty? (t.takeWhile (· != '\x27')) rest).map fun n => (some n.1, n.2)
    | [] => none
  | _ =>
    (nonempty? (s.takeWhile (!endsName ·)) (s.dropWhile (!endsName ·))).map
      fun n => (some n.1, n.2)

/-- The value after an equals sign, and what follows it. A value without quotes takes the rest
of the line, less the blanks around it and a comment, which may leave nothing. -/
def value? (s : List Char) : Option (List Char × List Char) :=
  match skipInner s with
  | '\x27' :: t => quoted? '\x27' singleEscape t
  | '"' :: t => quoted? '"' doubleEscape t
  | _ => some (Text.trim (beforeComment false (lineRest s)), fromLineEnd s)

/-- Ends a binding with its line. -/
def closeLine (name : Option (List Char)) (value : Option (List Char)) (s : List Char) :
    Option Binding × List Char :=
  let s := skipComment s
  match skipInner s with
  | [] => (name.map (⟨·, value⟩), [])
  | c :: rest => if c = '\n' then (name.map (⟨·, value⟩), rest) else (none, skipLine s)

/-- The binding at the front of a text, if its line can be read and is more than a comment,
and what follows the line. -/
def binding (s : List Char) : Option Binding × List Char :=
  let s := skipExport s
  match name? s with
  | none => (none, skipLine s)
  | some (name, s) =>
    match skipInner s with
    | '=' :: s =>
      match value? s with
      | none => (none, skipLine s)
      | some (value, s) => closeLine name (some value) s
    | s => closeLine name none s

theorem nonempty?_eq_some {part rest : List Char} {n : List Char × List Char}
    (h : nonempty? part rest = some n) : part ≠ [] ∧ n = (part, rest) := by
  unfold nonempty? at h
  split at h <;> simp_all

theorem name?_length {s rest : List Char} {name : Option (List Char)}
    (h : name? s = some (name, rest)) :
    rest.length < s.length ∨ name = none ∧ rest = s ∧ ∃ t, s = '#' :: t := by
  unfold name? at h
  split at h
  · rename_i t
    simp only [Option.some.injEq, Prod.mk.injEq] at h
    exact Or.inr ⟨h.1.symm, h.2.symm, t, rfl⟩
  · rename_i t
    refine Or.inl ?_
    split at h
    · rename_i c after heq
      obtain ⟨n, hn, he⟩ := Option.map_eq_some_iff.mp h
      obtain ⟨-, rfl⟩ := nonempty?_eq_some hn
      simp only [Prod.mk.injEq] at he
      have := (List.dropWhile_sublist (l := t) (· != '\x27')).length_le
      rw [heq] at this
      simp only [List.length_cons, ← he.2] at this ⊢
      omega
    · simp at h
  · refine Or.inl ?_
    obtain ⟨n, hn, he⟩ := Option.map_eq_some_iff.mp h
    obtain ⟨hne, rfl⟩ := nonempty?_eq_some hn
    simp only [Prod.mk.injEq] at he
    have := List.takeWhile_append_dropWhile (p := (!endsName ·)) (l := s)
    have := congrArg List.length this
    have := List.length_pos_iff.mpr hne
    simp only [List.length_append, ← he.2] at *
    omega

theorem value?_length_le {s : List Char} {cut : List Char × List Char}
    (h : value? s = some cut) : cut.2.length ≤ s.length := by
  have inner := skipInner_length_le s
  unfold value? at h
  split at h
  · rename_i t heq
    have shorter := quoted?_length_lt h
    rw [heq, List.length_cons] at inner
    omega
  · rename_i t heq
    have shorter := quoted?_length_lt h
    rw [heq, List.length_cons] at inner
    omega
  · simp only [Option.some.injEq] at h
    simpa [← h] using fromLineEnd_length_le s

theorem closeLine_length_le (name value : Option (List Char)) (s : List Char) :
    (closeLine name value s).2.length ≤ (skipComment s).length := by
  have inner := skipInner_length_le (skipComment s)
  unfold closeLine
  simp only
  split
  · simp
  · rename_i c rest heq
    rw [heq] at inner
    simp only [List.length_cons] at inner
    split
    · simp only
      omega
    · exact skipLine_length_le _

theorem binding_length_lt {s : List Char} (h : s ≠ []) : (binding s).2.length < s.length := by
  unfold binding
  have enter := skipExport_eq_or_length_lt s
  generalize skipExport s = t at enter
  simp only
  split
  · rcases enter with rfl | lt
    · exact skipLine_length_lt h
    · exact Nat.lt_of_le_of_lt (skipLine_length_le t) lt
  · rename_i name rest hname
    have past := name?_length hname
    split
    · rename_i u heq
      have inner := skipInner_length_le rest
      rw [heq] at inner
      simp only [List.length_cons] at inner
      have rest_le : rest.length ≤ t.length := by
        rcases past with lt | ⟨-, rfl, -⟩ <;> omega
      have t_le : t.length ≤ s.length := by
        rcases enter with rfl | lt <;> omega
      split
      · have := skipLine_length_le u
        simp only
        omega
      · rename_i value after hvalue
        have := value?_length_le hvalue
        have := closeLine_length_le name (some value) after
        have := skipComment_length_le after
        simp only at *
        omega
    · have close := closeLine_length_le name none (skipInner rest)
      have comment := skipComment_length_le (skipInner rest)
      have inner := skipInner_length_le rest
      rcases past with lt | ⟨-, rfl, u, rfl⟩
      · rcases enter with rfl | lt <;> omega
      · have still : skipInner ('#' :: u) = '#' :: u := rfl
        have : skipComment (skipInner ('#' :: u)) = fromLineEnd u := rfl
        have := fromLineEnd_length_le u
        simp only [List.length_cons] at enter ⊢
        rcases enter with rfl | lt <;> simp_all <;> omega

/-- The bindings of a text in order. Blanks before a line are skipped, blank lines too. -/
def bindings (s : List Char) : List Binding :=
  let start := Text.trimStart s
  if start.isEmpty then []
  else (binding start).1.toList ++ bindings (binding start).2
termination_by s.length
decreasing_by
  rename_i h
  refine Nat.lt_of_lt_of_le (binding_length_lt ?_) (Text.trimStart_length_le s)
  simpa using h

end DiceRoller.EnvFile
