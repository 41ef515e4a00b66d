import DiceRoller.Proofs.Settings.Assignments
import DiceRoller.Proofs.Settings.WrittenValues

/-!
# Files written line by line

An assignment is written as a name, an equals sign and a value with or without quotes, maybe after
the word `export` and maybe before a comment. A file of such lines, of comments and of blank lines
is read as these assignments in order (`bindings_written`).
-/

namespace DiceRoller.EnvFile

/-- The word is skipped only where it is a whole word. -/
theorem skipExport_eq_self {s : List Char}
    (h : s.takeWhile (!endsName ·) ≠ "export".toList) : skipExport s = s := by
  unfold skipExport
  split
  · rename_i c rest
    split
    · rename_i inner
      have ends : endsName c = true := by
        rw [endsName, (Bool.and_eq_true_iff.mp inner).1, Bool.or_true]
      refine absurd ?_ h
      have word : ∀ x ∈ "export".toList, (!endsName x) = true :=
        List.all_eq_true.mp (by decide)
      have parts : 'e' :: 'x' :: 'p' :: 'o' :: 'r' :: 't' :: c :: rest =
          "export".toList ++ c :: rest := rfl
      rw [parts, List.takeWhile_append_of_pos word, List.takeWhile_cons_of_neg (by simp [ends]),
        List.append_nil]
    · rfl
  · rfl

/-- An assignment with all that its line says. -/
structure Assigning where
  exported : Bool
  name : List Char
  /-- The blanks before the equals sign. -/
  before : List Char
  /-- The blanks after the equals sign. -/
  after : List Char
  style : Style
  value : List Char
  comment : Option (List Char)
  ne_nil : name ≠ []
  ne_export : name ≠ "export".toList
  inName : ∀ c ∈ name, endsName c = false
  unquoted : name.head? ≠ some '\x27'
  blanks : ∀ c ∈ before ++ after, isInnerBlank c = true
  bare : style = .bare → IsBare value
  unbroken : ∀ text ∈ comment, '\n' ∉ text
  /-- A comment right after the equals sign is left out, and so is a backslash right before the
  closing quote: it is not documented what they mean. -/
  filled : style = .bare → comment ≠ none → value ≠ []
  ends : style ≠ .bare → value.getLast? ≠ some '\\'

namespace Assigning

variable (a : Assigning)

def text : List Char :=
  (if a.exported then "export ".toList else []) ++ a.name ++ a.before ++ '=' :: a.after ++
    a.style.write a.value ++ remark a.comment

def binding : Binding := ⟨a.name, some a.value⟩

end Assigning

namespace Assigning

variable (a : Assigning) (rest : List Char)

theorem closes :
    ∃ tail, value? (a.after ++ (a.style.write a.value ++ (remark a.comment ++ '\n' :: rest))) =
        some (a.value, tail) ∧
      closeLine (some a.name) (some a.value) tail = (some a.binding, rest) := by
  have blanks : ∀ c ∈ a.after, isInnerBlank c = true :=
    fun c hc => a.blanks c (List.mem_append_right _ hc)
  cases style : a.style with
  | bare =>
    refine ⟨_, value?_bare blanks (a.bare style) a.unbroken rest, ?_⟩
    have ends : closeLine (some a.name) (some a.value) ('\n' :: rest) = (some a.binding, rest) :=
      rfl
    exact ends
  | single => exact ⟨_, value?_single blanks a.value _, closeLine_remark a.unbroken rest _ _⟩
  | double => exact ⟨_, value?_double blanks a.value _, closeLine_remark a.unbroken rest _ _⟩

/-- What is between the name and the end of the line. -/
def tail : List Char := '=' :: (a.after ++ (a.style.write a.value ++ remark a.comment))

theorem endsName_next :
    ∀ c ∈ (a.before ++ (a.tail ++ '\n' :: rest)).head?, (!endsName c) = false := by
  intro c hc
  rw [List.head?_append] at hc
  rw [Bool.not_eq_false']
  rcases Option.or_eq_some_iff.mp hc with blank | ⟨-, equals⟩
  · have inner := a.blanks c (List.mem_append_left _ (List.mem_of_head? blank))
    rw [endsName, isBlank_of_isInnerBlank inner, Bool.or_true]
  · obtain rfl := Option.some.inj equals
    decide

theorem inName_eq_true : ∀ c ∈ a.name, (!endsName c) = true :=
  fun c hc => by rw [a.inName c hc, Bool.not_false]

theorem exists_name_eq_cons :
    ∃ first others, a.name = first :: others ∧ endsName first = false := by
  obtain ⟨first, others, hname⟩ := List.exists_cons_of_ne_nil a.ne_nil
  exact ⟨first, others, hname, a.inName first (hname ▸ List.mem_cons_self)⟩

theorem takeWhile_name :
    (a.name ++ (a.before ++ (a.tail ++ '\n' :: rest))).takeWhile (!endsName ·) = a.name :=
  Text.takeWhile_append_of_stops a.inName_eq_true (a.endsName_next rest)

theorem dropWhile_name :
    (a.name ++ (a.before ++ (a.tail ++ '\n' :: rest))).dropWhile (!endsName ·) =
      a.before ++ (a.tail ++ '\n' :: rest) :=
  Text.dropWhile_append_of_stops a.inName_eq_true (a.endsName_next rest)

theorem name?_name :
    name? (a.name ++ (a.before ++ (a.tail ++ '\n' :: rest))) =
      some (some a.name, a.before ++ (a.tail ++ '\n' :: rest)) := by
  have plain : nonempty? a.name (a.before ++ (a.tail ++ '\n' :: rest)) =
      some (a.name, a.before ++ (a.tail ++ '\n' :: rest)) := by
    simp [nonempty?, a.ne_nil]
  obtain ⟨first, others, hname, inName⟩ := a.exists_name_eq_cons
  have starts : (a.name ++ (a.before ++ (a.tail ++ '\n' :: rest))).head? = some first := by
    rw [hname]
    rfl
  unfold name?
  split
  · rename_i eq
    rw [eq] at starts
    rw [← Option.some.inj starts] at inName
    exact absurd inName (by decide)
  · rename_i eq
    rw [eq] at starts
    refine absurd ?_ a.unquoted
    rw [hname, List.head?_cons, ← starts]
    rfl
  · rw [a.takeWhile_name, a.dropWhile_name, plain]
    rfl

theorem skipExport_text :
    skipExport (a.text ++ '\n' :: rest) = a.name ++ (a.before ++ (a.tail ++ '\n' :: rest)) := by
  have parts : a.text ++ '\n' :: rest = (if a.exported then "export ".toList else []) ++
      (a.name ++ (a.before ++ (a.tail ++ '\n' :: rest))) := by
    simp only [text, tail, List.append_assoc, List.cons_append]
  rw [parts]
  cases a.exported with
  | true =>
    obtain ⟨first, others, hname, inName⟩ := a.exists_name_eq_cons
    have blank : Text.isBlank first = false := (Bool.or_eq_false_iff.mp inName).2
    have inner : isInnerBlank first = false := by rw [isInnerBlank, blank, Bool.false_and]
    have skips (s : List Char) : skipExport ("export ".toList ++ s) = skipInner s := rfl
    rw [if_pos rfl, skips, hname, List.cons_append, skipInner_cons _ inner]
  | false =>
    rw [if_neg Bool.false_ne_true, List.nil_append]
    refine skipExport_eq_self ?_
    rw [a.takeWhile_name]
    exact a.ne_export

theorem binding_text : EnvFile.binding (a.text ++ '\n' :: rest) = (some a.binding, rest) := by
  obtain ⟨end_, hvalue, hclose⟩ := a.closes rest
  have equals : skipInner (a.before ++ (a.tail ++ '\n' :: rest)) =
      '=' :: (a.after ++ (a.style.write a.value ++ (remark a.comment ++ '\n' :: rest))) := by
    rw [skipInner_append fun c hc => a.blanks c (List.mem_append_left _ hc), tail,
      List.cons_append, List.append_assoc, List.append_assoc]
    exact skipInner_cons _ (by decide)
  unfold EnvFile.binding
  simp only [a.skipExport_text, a.name?_name, equals, hvalue, hclose]

end Assigning

/-- A line of a file: blanks, a comment or an assignment. -/
inductive FileLine
  | blank (blanks : List Char) (h : ∀ c ∈ blanks, isInnerBlank c = true)
  | comment (text : List Char) (h : '\n' ∉ text)
  | assignment (a : Assigning)

namespace FileLine

def text : FileLine → List Char
  | .blank blanks _ => blanks
  | .comment text _ => '#' :: text
  | .assignment a => a.text

def binding? : FileLine → Option Binding
  | .blank .. | .comment .. => none
  | .assignment a => some a.binding

end FileLine

/-- The text of a file in which every line ends with a line break. -/
def written (lines : List FileLine) : List Char := lines.flatMap fun line => line.text ++ ['\n']

theorem bindings_trimStart (s : List Char) : bindings (Text.trimStart s) = bindings s := by
  have again : Text.trimStart (Text.trimStart s) = Text.trimStart s :=
    List.dropWhile_idempotent _ s
  conv_lhs => rw [bindings, again]
  conv_rhs => rw [bindings]

theorem bindings_of_binding {s rest : List Char} {found : Option Binding} {c : Char}
    (starts : s.head? = some c) (filled : Text.isBlank c = false)
    (h : binding s = (found, rest)) : bindings s = found.toList ++ bindings rest := by
  obtain ⟨later, rfl⟩ := List.head?_eq_some_iff.mp starts
  have kept : Text.trimStart (c :: later) = c :: later :=
    List.dropWhile_cons_of_neg (Bool.eq_false_iff.mp filled)
  rw [bindings, kept]
  simp [h]

theorem binding_comment {text : List Char} (h : '\n' ∉ text) (rest : List Char) :
    binding ('#' :: (text ++ '\n' :: rest)) = (none, rest) := by
  have line : skipComment ('#' :: (text ++ '\n' :: rest)) = '\n' :: rest :=
    fromLineEnd_append h rest
  have closed : closeLine none none ('#' :: (text ++ '\n' :: rest)) = (none, rest) := by
    unfold closeLine
    rw [line]
    rfl
  exact closed

theorem Assigning.exists_head_text (a : Assigning) (rest : List Char) :
    ∃ c, (a.text ++ rest).head? = some c ∧ Text.isBlank c = false := by
  obtain ⟨first, others, hname, inName⟩ := a.exists_name_eq_cons
  cases exported : a.exported with
  | true => exact ⟨'e', by simp [text, exported], by decide⟩
  | false => exact ⟨first, by simp [text, exported, hname], (Bool.or_eq_false_iff.mp inName).2⟩

theorem bindings_line (line : FileLine) (rest : List Char) :
    bindings (line.text ++ '\n' :: rest) = line.binding?.toList ++ bindings rest := by
  cases line with
  | blank blanks h =>
    have skipped : Text.trimStart (blanks ++ '\n' :: rest) = Text.trimStart rest := by
      rw [Text.trimStart,
        List.dropWhile_append_of_pos fun c hc => isBlank_of_isInnerBlank (h c hc)]
      rfl
    exact (bindings_trimStart _).symm.trans ((congrArg bindings skipped).trans
      (bindings_trimStart rest))
  | comment text h =>
    exact bindings_of_binding rfl (by decide) (binding_comment h rest)
  | assignment a =>
    obtain ⟨c, starts, filled⟩ := a.exists_head_text ('\n' :: rest)
    exact bindings_of_binding starts filled (a.binding_text rest)

theorem bindings_written (lines : List FileLine) :
    bindings (written lines) = lines.filterMap FileLine.binding? := by
  induction lines with
  | nil =>
    rw [written, List.flatMap_nil, bindings]
    rfl
  | cons line lines ih =>
    rw [written, List.flatMap_cons, List.append_assoc, List.singleton_append, bindings_line,
      ← written, ih, List.filterMap_cons]
    cases line.binding? <;> rfl

theorem unifyLineEnds_of_not_mem {s : List Char} (h : '\r' ∉ s) : unifyLineEnds s = s := by
  fun_induction unifyLineEnds s with
  | case1 s ih => exact absurd List.mem_cons_self h
  | case2 s other ih => exact absurd List.mem_cons_self h
  | case3 c s _ _ ih => rw [ih fun later => h (List.mem_cons_of_mem c later)]
  | case4 => rfl

theorem skipByteOrderMark_eq_self {s : List Char} (h : s.head? ≠ some '\ufeff') :
    skipByteOrderMark s = s := by
  unfold skipByteOrderMark
  split
  · exact absurd rfl h
  · rfl

/-- What the lines of a file assign, one after the other. -/
def Assignments.ofLines (environment : List (List Char × List Char)) (lines : List FileLine) :
    Assignments :=
  (lines.filterMap FileLine.binding?).foldl (assign · environment) []

theorem Assignments.ofFile_written (environment : List (List Char × List Char))
    {lines : List FileLine} (feeds : '\r' ∉ written lines)
    (unmarked : (written lines).head? ≠ some '\ufeff') :
    ofFile environment (written lines) = ofLines environment lines := by
  rw [ofLines, ofFile, skipByteOrderMark_eq_self unmarked, unifyLineEnds_of_not_mem feeds,
    bindings_written]

end DiceRoller.EnvFile
