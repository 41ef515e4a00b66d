import DiceRoller.Proofs.Expression.Acceptance
import DiceRoller.Proofs.Text.Unbroken
import DiceRoller.Proofs.Yielding

/-!
# Reading that is cut short

Reading a text ends with an expression within the bounds, with a fault, or with an abort over a
number that has too many digits (`yields_read`). Nothing else can cut it short. What a fault
says of a text in one line is said in one line.
-/

namespace DiceRoller

/-- A fault that is told in one line if the text is one, or an abort over too many digits. -/
abbrev Failure.KeepsLine (text : String) : Failure → Prop :=
  Failure.Meets (fun fault => Unbroken text → Unbroken fault.detail) Abort.OfDigits

theorem Failure.keepsLine_ofDetail (kind : Fault.Kind) {text : String}
    {detail : Except Abort String}
    (h : Yields (fun words => Unbroken text → Unbroken words) Abort.OfDigits detail) :
    (Failure.ofDetail kind detail).KeepsLine text := by
  cases h with
  | ok h => exact .fault h
  | error h => exact .abort h

/-- Too many digits are the one thing that a number can have against being written. -/
theorem Numeral.ofDigits_write (n : Int) : Yields Unbroken Abort.OfDigits (write n) := by
  apply (yields_write n).mono
  · rintro text rfl
    exact unbroken_toString n
  · rintro reason ⟨rfl, -⟩
    trivial

theorem Failure.keepsLine_overflow (text : String) (cap : Int) :
    (Failure.overflow text cap).KeepsLine text := by
  unfold Failure.overflow
  apply Failure.keepsLine_ofDetail
  apply (Numeral.ofDigits_write cap).bind
  intro cap hcap
  exact .ok fun h => by simp +decide [h, hcap]

namespace Expression

theorem Flaw.unbroken_detail {flaw : Flaw} {text : String} (h : Unbroken text)
    (inside : ∀ tail, flaw = .unexpected tail → '\n' ∉ tail) : Unbroken (flaw.detail text) := by
  cases flaw with
  | unexpected tail =>
    have rest : Unbroken (String.ofList tail) := by
      rw [Unbroken, String.toList_ofList]
      exact inside tail rfl
    simp +decide [Flaw.detail, Flaw.phrase, h, rest]
  | empty | noDice | secondSelection | secondCounting | mixedModifiers =>
    simp +decide [Flaw.detail, Flaw.phrase, h]

theorem Breach.keepsLine_failure (breach : Breach) (text : String) :
    (breach.failure text).KeepsLine text := by
  apply Failure.keepsLine_ofDetail
  cases breach with
  | tooManyDice count most =>
    apply (Numeral.ofDigits_write count).bind
    intro count hcount
    apply (Numeral.ofDigits_write most).bind
    intro most hmost
    exact .ok fun h => by simp +decide [h, hcount, hmost]
  | amountAboveCount amount count =>
    apply (Numeral.ofDigits_write amount).bind
    intro amount hamount
    apply (Numeral.ofDigits_write count).bind
    intro count hcount
    exact .ok fun h => by simp +decide [h, hamount, hcount]
  | noDie | tooFewSides | amountTooSmall => exact .ok fun h => by simp +decide [h]

/-- The computation has its value, or it fails with a fault that keeps to the line of the text, or
over too many digits. -/
abbrev Reads {α : Type} (text : String) (good : α → Prop) : Except Failure α → Prop :=
  Yields good (Failure.KeepsLine text)

section Reading

variable (text : String)

theorem reads_numeral (digits : List Char) :
    Reads text (fun _ => True) (readNumeral digits) := by
  unfold readNumeral
  cases h : Numeral.read digits with
  | ok n => exact .ok trivial
  | error reason => exact .error (.abort ((Numeral.yields_read digits).of_eq_error h))

theorem reads_refuse {α : Type} {good : α → Prop} (flaw : Flaw)
    (inside : ∀ tail, flaw = .unexpected tail → tail ⊆ text.toList) :
    Reads text good (.error (refuse text flaw)) :=
  .error <| .fault fun h => Flaw.unbroken_detail h fun tail same newline =>
    h (inside tail same newline)

theorem reads_add (met : Gathered) (clause : Clause) :
    Reads text (fun _ => True) (met.add text clause) := by
  apply (reads_numeral text clause.digits).bind
  intro n _
  cases clause.keyword with
  | select rule =>
    dsimp only
    split
    · exact reads_refuse text _ nofun
    · exact .ok trivial
  | count rule =>
    dsimp only
    split
    · exact reads_refuse text _ nofun
    · exact .ok trivial

theorem reads_foldlM_add (clauses : List Clause) (met : Gathered) :
    Reads text (fun _ => True) (clauses.foldlM (Gathered.add text) met) := by
  induction clauses generalizing met with
  | nil => exact .ok trivial
  | cons clause clauses ih =>
    rw [List.foldlM_cons]
    exact (reads_add text met clause).bind fun more _ => ih more

theorem reads_modifier (clauses : List Clause) :
    Reads text (fun _ => True) (readModifier text clauses) := by
  apply (reads_foldlM_add text clauses {}).bind
  rintro ⟨selection, counting⟩ -
  cases selection <;> cases counting <;>
    first | exact .ok trivial | exact reads_refuse text _ nofun

theorem reads_constant {tail : List Char} (inside : tail ⊆ text.toList) :
    Reads text (fun _ => True) (readConstant text tail) := by
  unfold readConstant
  cases tail with
  | nil => exact .ok trivial
  | cons sign digits =>
    dsimp only
    split
    · exact (reads_numeral text digits).bind fun _ _ => .ok trivial
    · apply reads_refuse text
      rintro _ ⟨⟩
      exact inside

theorem reads_draft {draft : Draft} (inside : draft.tail ⊆ text.toList) :
    Reads text (fun _ => True) (draft.read text) := by
  have rest (count : Nat) (die : Die) : Reads text (fun _ => True) (do
      let modifier ← readModifier text draft.clauses
      let constant ← readConstant text draft.tail
      return (⟨count, die, modifier, constant⟩ : Expression)) := by
    apply (reads_modifier text draft.clauses).bind
    intro modifier _
    exact (reads_constant text inside).bind fun _ _ => .ok trivial
  unfold Draft.read
  cases draft.sides with
  | none =>
    dsimp only
    split
    · exact rest 1 .fate
    · exact (reads_numeral text draft.count).bind fun count _ => rest count .fate
  | some digits =>
    have sided (count : Nat) :=
      (reads_numeral text digits).bind fun sides _ => rest count (.numbered sides)
    dsimp only
    split
    · exact sided 1
    · exact (reads_numeral text draft.count).bind fun count _ => sided count

theorem reads_bounded (most : Int) (e : Expression) :
    Reads text (WithinBounds most) (e.bounded most text) := by
  unfold bounded
  cases h : e.breach? most with
  | none => exact .ok (breach?_eq_none_iff.mp h)
  | some breach => exact .error (breach.keepsLine_failure text)

end Reading

/-- The tail of a draft is the end of its text. -/
theorem tail_subset_of_scan {s : List Char} {draft : Draft} (h : Draft.scan s = some draft) :
    draft.tail ⊆ s := by
  obtain ⟨outline, rfl, rfl⟩ := exists_outline_of_scan h
  exact fun c hc => by simp [Outline.chars, show c ∈ outline.tail from hc]

theorem yields_read (most : Int) (text : String) :
    Yields (WithinBounds most) (Failure.KeepsLine (canonical text)) (read most text) := by
  unfold read readCanonical
  split
  · exact reads_refuse _ .empty nofun
  · cases scanned : Draft.scan (canonical text).toList with
    | none => exact reads_refuse _ .noDice nofun
    | some draft =>
      exact (reads_draft _ (tail_subset_of_scan scanned)).bind fun e _ => reads_bounded _ most e

/-- A count with too many digits aborts the reading, whatever its value is. -/
theorem readCanonical_of_long_count (most : Int) {text : String} {p : Phrase} {digits : Digits}
    (h : p.chars = text.toList) (count : p.count = some digits)
    (long : Numeral.maxDigits < digits.chars.length) :
    readCanonical most text = .error (.abort (.longNumeral digits.chars.length)) := by
  have given : ¬ text.isEmpty = true := by
    intro none
    rw [String.isEmpty_iff.mp none] at h
    simp [Phrase.chars] at h
  have refused : readNumeral digits.chars = .error (.abort (.longNumeral digits.chars.length)) := by
    rw [readNumeral, Numeral.read, if_neg (Nat.not_le.mpr long)]
    rfl
  have filled : p.outline.draft.count = digits.chars := by
    simp [Phrase.outline, Outline.draft, count]
  rw [readCanonical, if_neg given, ← h, p.scan_chars]
  simp only [Draft.read, filled, List.isEmpty_iff, digits.ne_nil, if_false, refused]
  rfl

end Expression

end DiceRoller
