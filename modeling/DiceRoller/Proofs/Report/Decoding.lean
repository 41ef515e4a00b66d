import DiceRoller.Proofs.Report.Shown

/-!
# Tallies read back

Numbers are written in digits and minus signs, so the spaces in the display of a tally stand
between its dice and a parenthesis opens a die that was dropped. From the marks on the dice the
row is taken apart into the two rows that were merged, whether they are ascending or not. The
total and the faces are read back from the display with `Tally.ofText?`.
-/

namespace DiceRoller

namespace Numeral

/-- The integer written in digits, or in digits after a minus sign. -/
def ofChars : List Char → Int
  | '-' :: digits => -value digits
  | digits => value digits

theorem space_not_mem_toString (n : Int) : ' ' ∉ (toString n).toList :=
  not_mem_toString (by decide) (by decide) n

theorem ofChars_of_unsigned {digits : List Char} (unsigned : '-' ∉ digits) :
    ofChars digits = value digits := by
  unfold ofChars
  split
  · simp at unsigned
  · rfl

theorem ofChars_toString (n : Int) : ofChars (toString n).toList = n := by
  cases n with
  | ofNat n =>
    change ofChars n.repr.toList = n
    rw [Nat.repr, String.toList_ofList, ofChars_of_unsigned (not_mem_toDigits (by decide) n),
      value_toDigits]
  | negSucc n =>
    rw [toList_toString_negSucc, Nat.repr, String.toList_ofList, ofChars, value_toDigits]
    rfl

end Numeral

namespace ShownDie

def ofChars : List Char → ShownDie
  | '(' :: face => ⟨Numeral.ofChars face.dropLast, true⟩
  | face => ⟨Numeral.ofChars face, false⟩

theorem ofChars_of_unmarked {face : List Char} (unmarked : '(' ∉ face) :
    ofChars face = ⟨Numeral.ofChars face, false⟩ := by
  unfold ofChars
  split
  · simp at unmarked
  · rfl

theorem toList_shown (die : ShownDie) : die.shown.toList =
    if die.dropped then '(' :: ((toString die.face).toList ++ [')'])
    else (toString die.face).toList := by
  unfold shown
  split
  · simp only [String.toList_append]
    rfl
  · rfl

theorem ofChars_shown (die : ShownDie) : ofChars die.shown.toList = die := by
  obtain ⟨face, dropped⟩ := die
  rw [toList_shown]
  cases dropped with
  | true =>
    rw [if_pos rfl, ofChars, List.dropLast_concat, Numeral.ofChars_toString]
  | false =>
    have unmarked : '(' ∉ (toString face).toList :=
      Numeral.not_mem_toString (by decide) (by decide) face
    rw [if_neg Bool.false_ne_true, ofChars_of_unmarked unmarked, Numeral.ofChars_toString]

theorem space_not_mem_shown (die : ShownDie) : ' ' ∉ die.shown.toList := by
  have face := Numeral.space_not_mem_toString die.face
  rw [toList_shown]
  split
  · rw [List.mem_cons, List.mem_append, not_or, not_or]
    exact ⟨by decide, face, by decide⟩
  · exact face

end ShownDie

theorem intercalate_cons_left {α : Type} (sep : List α) (a : α) (first : List α)
    (rest : List (List α)) :
    sep.intercalate ((a :: first) :: rest) = a :: sep.intercalate (first :: rest) := by
  cases rest with
  | nil => rw [List.intercalate_singleton, List.intercalate_singleton]
  | cons second rest => rw [List.intercalate_cons_cons, List.intercalate_cons_cons]; rfl

namespace Tally

/-- The tally of the dice in one row that have this total. -/
def ofDice (total : Int) (dice : List ShownDie) : Tally :=
  ⟨(dice.filter (!·.dropped)).map ShownDie.face, (dice.filter (·.dropped)).map ShownDie.face,
    total⟩

/-- The tally of several dice that is displayed in this way. -/
def ofText? (text : String) : Option Tally :=
  match text.toList.dropLast.splitOn ' ' with
  | total :: ('\x7b' :: first) :: dice =>
    some (.ofDice (Numeral.ofChars total) ((first :: dice).map ShownDie.ofChars))
  | _ => none

variable (tally : Tally)

theorem ofDice_dice : ofDice tally.total tally.dice = tally := by
  rw [ofDice, filter_kept_dice, filter_dropped_dice]

theorem length_dice : tally.dice.length = tally.dieCount := by
  rw [tally.dice_perm.length_eq]
  simp [rows, dieCount]

theorem ofText?_toString (n : Int) : ofText? (toString n) = none := by
  have whole : (toString n).toList.dropLast.splitOn ' ' = [(toString n).toList.dropLast] := by
    apply List.splitOnP_eq_singleton
    intro c hc
    apply beq_false_of_ne
    rintro rfl
    exact Numeral.space_not_mem_toString n (List.dropLast_subset _ hc)
  rw [ofText?, whole]

/-- The parts that the spaces in the display of several dice separate. -/
theorem splitOn_shown {first : ShownDie} {dice : List ShownDie} (row : tally.dice = first :: dice)
    (several : ¬ tally.dieCount ≤ 1) :
    tally.shown.toList.dropLast.splitOn ' ' = (toString tally.total).toList ::
      ('\x7b' :: first.shown.toList) :: dice.map (·.shown.toList) := by
  have joined : tally.shown.toList = [' '].intercalate ((toString tally.total).toList ::
      ('\x7b' :: first.shown.toList) :: dice.map (·.shown.toList)) ++ ['\x7d'] := by
    have texts : (tally.dice.map ShownDie.shown).map String.toList =
        first.shown.toList :: dice.map (·.shown.toList) := by
      rw [row, List.map_cons, List.map_cons, List.map_map]
      rfl
    rw [shown, if_neg several, List.intercalate_cons_cons, intercalate_cons_left]
    simp only [String.toList_append, String.toList_intercalate, texts, List.append_assoc]
    rfl
  rw [joined, List.dropLast_concat]
  apply List.splitOn_intercalate ' ' ?_ (List.cons_ne_nil _ _)
  intro part hpart
  rcases List.mem_cons.mp hpart with rfl | hpart
  · exact Numeral.space_not_mem_toString tally.total
  · rcases List.mem_cons.mp hpart with rfl | hpart
    · exact List.not_mem_cons_of_ne_of_not_mem (by decide) first.space_not_mem_shown
    · obtain ⟨die, -, rfl⟩ := List.mem_map.mp hpart
      exact die.space_not_mem_shown

theorem ofText?_shown :
    ofText? tally.shown = if tally.dieCount ≤ 1 then none else some tally := by
  by_cases lone : tally.dieCount ≤ 1
  · rw [if_pos lone, shown, if_pos lone, ofText?_toString]
  · obtain ⟨first, dice, row⟩ : ∃ first dice, tally.dice = first :: dice := by
      apply List.exists_cons_of_length_pos
      rw [length_dice]
      omega
    have faces : (first.shown.toList :: dice.map (·.shown.toList)).map ShownDie.ofChars =
        tally.dice := by
      simp [row, ShownDie.ofChars_shown, Function.comp_def]
    rw [ofText?, splitOn_shown tally row lone, if_neg lone]
    simp only [faces, Numeral.ofChars_toString, ofDice_dice]

end Tally

namespace Result

theorem shown_of_display {result : Result} {tally : Tally} {display : String}
    (ended : result.outcome = .ok tally) (made : result.display = .ok display) :
    tally.shown = display := by
  rw [Result.display, ended] at made
  exact tally.yields_shown.of_eq_ok made

/-- A tally of several dice is read back from its display, be its rows ascending or not, and no
lone die is displayed as several dice are. -/
theorem display_read_back :
    (∀ (result : Result) (tally : Tally), result.outcome = .ok tally → tally.Writable →
      ∃ display, result.display = .ok display ∧
        Tally.ofText? display = if tally.dieCount ≤ 1 then none else some tally) ∧
    ∀ (a b : Result) (tally tally' : Tally) (display : String),
      a.outcome = .ok tally → b.outcome = .ok tally' →
      a.display = .ok display → b.display = .ok display →
        (2 ≤ tally.dieCount → 2 ≤ tally'.dieCount → tally = tally') ∧
          (tally.dieCount ≤ 1 ↔ tally'.dieCount ≤ 1) := by
  constructor
  · intro result tally ended writable
    refine ⟨tally.shown, ?_, tally.ofText?_shown⟩
    rw [Result.display, ended]
    exact tally.text_of_writable writable
  · intro a b tally tally' display ended ended' made made'
    have read := tally.ofText?_shown
    have read' := tally'.ofText?_shown
    rw [shown_of_display ended made] at read
    rw [shown_of_display ended' made', read] at read'
    by_cases lone : tally.dieCount ≤ 1
    · by_cases lone' : tally'.dieCount ≤ 1
      · exact ⟨by omega, by omega⟩
      · simp [lone, lone'] at read'
    · by_cases lone' : tally'.dieCount ≤ 1
      · simp [lone, lone'] at read'
      · rw [if_neg lone, if_neg lone'] at read'
        exact ⟨fun _ _ => Option.some.inj read', by omega⟩

theorem display_read_back_unsorted :
    let tally : Tally := ⟨[4, -12], [-12, 4], -8⟩
    let a : Result := ⟨"4d20kh2", .ok tally⟩
    let b : Result := ⟨"4d20dl2", .ok tally⟩
    let display := "-8 \x7b(-12) 4 -12 (4)\x7d"
    a.outcome = .ok tally ∧ b.outcome = .ok tally ∧ tally.Writable ∧ a.display = .ok display ∧
      b.display = .ok display ∧ Tally.ofText? display = some tally ∧ 2 ≤ tally.dieCount ∧
      ∀ tally', b.outcome = .ok tally' → 2 ≤ tally'.dieCount → tally = tally' := by
  intro tally a b display
  have writable : tally.Writable := ⟨by decide +kernel, by decide +kernel, by decide +kernel⟩
  have dice : tally.dice = [⟨-12, true⟩, ⟨4, false⟩, ⟨-12, false⟩, ⟨4, true⟩] := by
    simp [tally, Tally.dice, ShownDie.before]
  have shown : tally.shown = display := by
    rw [Tally.shown, dice]
    decide +kernel
  have made : tally.text = .ok display := shown ▸ tally.text_of_writable writable
  have several : 2 ≤ tally.dieCount := by decide
  refine ⟨rfl, rfl, writable, made, made, ?_, several, ?_⟩
  · obtain ⟨display', made', read⟩ := display_read_back.1 a tally rfl writable
    rw [Except.ok.inj (made.symm.trans made'), read]
    rfl
  · intro tally' ended
    exact (display_read_back.2 a b tally tally' display rfl ended made made).1 several

end Result

end DiceRoller
