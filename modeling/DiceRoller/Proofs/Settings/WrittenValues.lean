import DiceRoller.Proofs.Text.Trimming
import DiceRoller.Settings.EnvFile.Binding

/-!
# Values as they are written

A value stands bare in its line or between quotes, where a backslash is put before every backslash
and every such quote. It is read back from there, whatever blanks come before it
(`value?_single`, `value?_double`) and, where it stands bare, whatever comment comes after it
(`value?_bare`).
-/

namespace DiceRoller.EnvFile

theorem isBlank_of_isInnerBlank {c : Char} (h : isInnerBlank c = true) : Text.isBlank c = true :=
  (Bool.and_eq_true_iff.mp h).1

theorem skipInner_append {blanks : List Char} (h : ∀ c ∈ blanks, isInnerBlank c = true)
    (s : List Char) : skipInner (blanks ++ s) = skipInner s :=
  List.dropWhile_append_of_pos h

theorem skipInner_cons {c : Char} (s : List Char) (h : isInnerBlank c = false) :
    skipInner (c :: s) = c :: s :=
  List.dropWhile_cons_of_neg (Bool.eq_false_iff.mp h)

section LineEnd

variable {front : List Char} (h : '\n' ∉ front) (rest : List Char)

include h

theorem ne_lineEnd : ∀ c ∈ front, (c != '\n') = true := by
  intro c hc
  exact bne_iff_ne.mpr fun feed => h (feed ▸ hc)

theorem lineRest_append : lineRest (front ++ '\n' :: rest) = front :=
  Text.takeWhile_append_of_stops (ne_lineEnd h) fun c hc => Option.some.inj hc ▸ by decide

theorem fromLineEnd_append : fromLineEnd (front ++ '\n' :: rest) = '\n' :: rest :=
  Text.dropWhile_append_of_stops (ne_lineEnd h) fun c hc => Option.some.inj hc ▸ by decide

end LineEnd

section Quoting

/-- The character as it is written between two such quotes. -/
def escape (quote c : Char) : List Char := if c = '\\' ∨ c = quote then ['\\', c] else [c]

variable {quote : Char} {meaning : Char → Option Char}

theorem quoted?_cons {c : Char} (s : List Char) (h : c ≠ '\\') :
    quoted? quote meaning (c :: s) =
      if c = quote then some ([], s)
      else (quoted? quote meaning s).map fun cut => (c :: cut.1, cut.2) := by
  rw [quoted?]
  exact fun _ _ slash _ => h slash

theorem quoted?_escaped (slash : meaning '\\' = some '\\') (own : meaning quote = some quote)
    (other : quote ≠ '\\') (value rest : List Char) :
    quoted? quote meaning (value.flatMap (escape quote) ++ quote :: rest) = some (value, rest) := by
  induction value with
  | nil => rw [List.flatMap_nil, List.nil_append, quoted?_cons rest other, if_pos rfl]
  | cons c value ih =>
    rw [List.flatMap_cons, escape]
    split
    · rename_i special
      have meant : meaning c = some c := by
        rcases special with rfl | rfl
        · exact slash
        · exact own
      simp only [List.cons_append, List.nil_append, quoted?, ih, Option.map_some, unescape, meant]
    · rename_i plain
      rw [not_or] at plain
      rw [List.append_assoc, List.singleton_append, quoted?_cons _ plain.1, if_neg plain.2, ih]
      rfl

end Quoting

section Commenting

/-- What comes before a comment is found piece by piece. -/
theorem exists_beforeComment {front : List Char} {afterBlank : Bool}
    (h : beforeComment afterBlank front = front) :
    ∃ blank, ∀ s, beforeComment afterBlank (front ++ s) = front ++ beforeComment blank s := by
  induction front generalizing afterBlank with
  | nil => exact ⟨afterBlank, fun s => rfl⟩
  | cons c front ih =>
    rw [beforeComment] at h
    split at h
    · cases h
    · rename_i inside
      obtain ⟨blank, later⟩ := ih (List.cons_eq_cons.mp h).2
      refine ⟨blank, fun s => ?_⟩
      rw [List.cons_append, beforeComment, if_neg inside, later]
      rfl

theorem beforeComment_of_not_mem {s : List Char} (h : '#' ∉ s) (afterBlank : Bool) :
    beforeComment afterBlank s = s := by
  induction s generalizing afterBlank with
  | nil => rfl
  | cons c s ih =>
    rw [List.mem_cons, not_or] at h
    rw [beforeComment, if_neg fun start => h.1 start.1.symm, ih h.2]

theorem beforeComment_of_true {s : List Char} (h : beforeComment true s = s) (afterBlank : Bool) :
    beforeComment afterBlank s = s := by
  cases s with
  | nil => rfl
  | cons c s =>
    rw [beforeComment] at h ⊢
    split at h
    · cases h
    · rename_i inside
      rw [if_neg fun start => inside ⟨start.1, rfl⟩]
      exact h

end Commenting

/-- How a value stands in its line. -/
inductive Style
  | bare
  | single
  | double
  deriving DecidableEq, Repr

def Style.write (value : List Char) : Style → List Char
  | .bare => value
  | .single => '\x27' :: (value.flatMap (escape '\x27') ++ ['\x27'])
  | .double => '"' :: (value.flatMap (escape '"') ++ ['"'])

/-- The value can stand without quotes. -/
structure IsBare (value : List Char) : Prop where
  trimmed : Text.trim value = value
  unbroken : '\n' ∉ value
  uncommented : beforeComment true value = value
  unquoted : ∀ c ∈ value.head?, c ≠ '\x27' ∧ c ≠ '"'

/-- A comment with the blank before it, or nothing. -/
def remark : Option (List Char) → List Char
  | none => []
  | some text => ' ' :: '#' :: text

section Closing

variable {comment : Option (List Char)} (unbroken : ∀ text ∈ comment, '\n' ∉ text)
  (rest : List Char)

include unbroken

theorem newline_not_mem_remark : '\n' ∉ remark comment := by
  cases comment with
  | none => exact List.not_mem_nil
  | some text => simpa [remark] using unbroken text rfl

theorem skipComment_remark :
    skipComment (remark comment ++ '\n' :: rest) = '\n' :: rest := by
  cases comment with
  | none => rfl
  | some text =>
    have opens : skipInner (remark (some text) ++ '\n' :: rest) = '#' :: (text ++ '\n' :: rest) :=
      rfl
    unfold skipComment
    rw [opens]
    exact fromLineEnd_append (unbroken text rfl) rest

theorem closeLine_remark (name value : Option (List Char)) :
    closeLine name value (remark comment ++ '\n' :: rest) =
      (name.map fun name => ⟨name, value⟩, rest) := by
  unfold closeLine
  rw [skipComment_remark unbroken]
  rfl

/-- A remark is no part of a value. -/
theorem exists_beforeComment_remark (blank : Bool) :
    ∃ blanks, beforeComment blank (remark comment) = blanks ∧
      ∀ c ∈ blanks, Text.isBlank c = true := by
  cases comment with
  | none => exact ⟨[], rfl, nofun⟩
  | some text => exact ⟨[' '], by cases blank <;> rfl, by simp; rfl⟩

end Closing

section Values

variable {after : List Char} (blanks : ∀ c ∈ after, isInnerBlank c = true)

include blanks

theorem skipInner_quoted {quote : Char} (other : isInnerBlank quote = false)
    (value rest : List Char) :
    skipInner (after ++ (quote :: (value.flatMap (escape quote) ++ [quote]) ++ rest)) =
      quote :: (value.flatMap (escape quote) ++ quote :: rest) := by
  rw [skipInner_append blanks, List.cons_append, List.append_assoc]
  exact skipInner_cons _ other

theorem value?_single (value rest : List Char) :
    value? (after ++ (Style.single.write value ++ rest)) = some (value, rest) := by
  have slash : singleEscape '\\' = some '\\' := rfl
  have own : singleEscape '\x27' = some '\x27' := rfl
  unfold value?
  rw [Style.write, skipInner_quoted blanks (by decide)]
  exact quoted?_escaped slash own (by decide) value rest

theorem value?_double (value rest : List Char) :
    value? (after ++ (Style.double.write value ++ rest)) = some (value, rest) := by
  have slash : doubleEscape '\\' = some '\\' := rfl
  have own : doubleEscape '"' = some '"' := rfl
  unfold value?
  rw [Style.write, skipInner_quoted blanks (by decide)]
  exact quoted?_escaped slash own (by decide) value rest

/-- A bare value ends with its line, whatever comment comes after it. -/
theorem value?_bare {value : List Char} (bare : IsBare value) {comment : Option (List Char)}
    (unbroken : ∀ text ∈ comment, '\n' ∉ text) (rest : List Char) :
    value? (after ++ (value ++ (remark comment ++ '\n' :: rest))) =
      some (value, '\n' :: rest) := by
  have line : '\n' ∉ after ++ (value ++ remark comment) := by
    rw [List.mem_append, List.mem_append, not_or, not_or]
    refine ⟨fun feed => ?_, bare.unbroken, newline_not_mem_remark unbroken⟩
    exact absurd (blanks '\n' feed) (by decide)
  have unquoted : ∀ c ∈ (skipInner (after ++ (value ++ (remark comment ++ '\n' :: rest)))).head?,
      c ≠ '\x27' ∧ c ≠ '"' := by
    rw [skipInner_append blanks]
    cases hvalue : value with
    | nil =>
      cases comment with
      | none => exact fun c hc => Option.some.inj hc ▸ by decide
      | some text => exact fun c hc => Option.some.inj hc ▸ by decide
    | cons first value =>
      have head := (Text.trim_eq_self_iff.mp bare.trimmed).1 first (by rw [hvalue]; rfl)
      have inner : isInnerBlank first = false := by rw [isInnerBlank, head, Bool.false_and]
      rw [List.cons_append, skipInner_cons _ inner]
      exact fun c hc => bare.unquoted c (by rw [hvalue]; exact hc)
  have kept : Text.trim (beforeComment false (after ++ (value ++ remark comment))) = value := by
    have number : '#' ∉ after := fun mem => absurd (blanks '#' mem) (by decide)
    obtain ⟨_, inner⟩ := exists_beforeComment (beforeComment_of_not_mem number false)
    obtain ⟨_, own⟩ := exists_beforeComment (beforeComment_of_true bare.uncommented _)
    obtain ⟨trailing, last, blank⟩ := exists_beforeComment_remark unbroken _
    rw [inner, own, last,
      Text.trim_blanks_append _ fun c hc => isBlank_of_isInnerBlank (blanks c hc),
      Text.trim_append_blanks _ blank, bare.trimmed]
  have parts : after ++ (value ++ (remark comment ++ '\n' :: rest)) =
      after ++ (value ++ remark comment) ++ '\n' :: rest := by simp
  unfold value?
  split
  · rename_i t eq
    exact absurd rfl (unquoted '\x27' (by rw [eq]; rfl)).1
  · rename_i t eq
    exact absurd rfl (unquoted '"' (by rw [eq]; rfl)).2
  · rw [parts, lineRest_append line, fromLineEnd_append line, kept]

end Values

end DiceRoller.EnvFile
