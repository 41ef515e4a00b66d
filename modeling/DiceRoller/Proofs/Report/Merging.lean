import DiceRoller.Proofs.Pool.BestCut
import DiceRoller.Report.Display

/-!
# Kept and dropped dice in one row

The row in which the dice of a tally are shown has the kept and the dropped ones each in their
own order. When both are ascending it is the stable sort of the kept dice followed by the
dropped ones, and no other row is (`SortsStably.unique`). An expression that does not expand
shows all the faces that it drew in ascending order (`Tally.dice_stable`).
-/

namespace DiceRoller

/-- The second list has the dice of the first by ascending face, those of one face in the order
that they had. -/
structure SortsStably (dice sorted : List ShownDie) : Prop where
  ascending : sorted.Pairwise (·.face ≤ ·.face)
  stable : ∀ face, sorted.filter (·.face = face) = dice.filter (·.face = face)

namespace SortsStably

variable {dice sorted : List ShownDie}

theorem mem_iff (h : SortsStably dice sorted) {die : ShownDie} : die ∈ sorted ↔ die ∈ dice := by
  have same : die ∈ sorted.filter (·.face = die.face) ↔ die ∈ dice.filter (·.face = die.face) := by
    rw [h.stable]
  simpa using same

theorem tail {first : ShownDie} (h : SortsStably (first :: dice) (first :: sorted)) :
    SortsStably dice sorted := by
  refine ⟨h.ascending.tail, fun face => ?_⟩
  have same := h.stable face
  by_cases here : first.face = face
  · simpa [here] using same
  · simpa [here] using same

/-- A row that sorts an ascending row is that row. -/
theorem eq_of_ascending (h : SortsStably dice sorted) (ordered : dice.Pairwise (·.face ≤ ·.face)) :
    sorted = dice := by
  induction dice generalizing sorted with
  | nil =>
    apply List.eq_nil_iff_forall_not_mem.mpr
    intro die hdie
    exact List.not_mem_nil (h.mem_iff.mp hdie)
  | cons first dice ih =>
    cases sorted with
    | nil => exact absurd (h.mem_iff.mpr List.mem_cons_self) List.not_mem_nil
    | cons other sorted =>
      -- The first of both rows has the least face of all, and is the first die of that face.
      have low : first.face ≤ other.face := by
        rcases List.mem_cons.mp (h.mem_iff.mp List.mem_cons_self) with rfl | later
        · exact Int.le_refl _
        · exact List.rel_of_pairwise_cons ordered later
      have high : other.face ≤ first.face := by
        rcases List.mem_cons.mp (h.mem_iff.mpr List.mem_cons_self) with rfl | later
        · exact Int.le_refl _
        · exact List.rel_of_pairwise_cons h.ascending later
      have equal : other.face = first.face := Int.le_antisymm high low
      have front := h.stable first.face
      rw [List.filter_cons_of_pos (by simpa using equal), List.filter_cons_of_pos (by simp)]
        at front
      obtain rfl := (List.cons.inj front).1
      rw [ih h.tail ordered.tail]

theorem unique {other : List ShownDie} (h : SortsStably dice sorted) (h' : SortsStably dice other) :
    other = sorted :=
  eq_of_ascending ⟨h'.ascending, fun face => (h'.stable face).trans (h.stable face).symm⟩
    h.ascending

/-- Dice of one face stand in the order that they had. -/
theorem pair_sublist (h : SortsStably dice sorted) {a b : ShownDie} (same : a.face = b.face)
    (order : [a, b].Sublist sorted) : [a, b].Sublist dice := by
  have inFace := order.filter (·.face = b.face)
  rw [h.stable] at inFace
  simpa [same] using inFace.trans List.filter_sublist

end SortsStably

section Merging

variable {before : ShownDie → ShownDie → Bool} {p : ShownDie → Bool} {kept dropped : List ShownDie}

/-- Of the dice of one kind those of the first row come first, where no die of the second goes in
front of one of them. -/
theorem filter_merge (h : ∀ a rest, a :: rest <:+ kept → ∀ die ∈ a :: rest, p die = true →
      ∀ b ∈ dropped, p b = true → before a b = true) :
    (kept.merge dropped before).filter p = kept.filter p ++ dropped.filter p := by
  fun_induction List.merge kept dropped before with
  | case1 => rfl
  | case2 => simp
  | case3 a kept b dropped _ ih =>
    have rest := ih fun first rest suffix => h first rest (suffix.trans (List.suffix_cons a kept))
    by_cases kind : p a = true
    · rw [List.filter_cons_of_pos kind, rest, List.filter_cons_of_pos kind, List.cons_append]
    · rw [List.filter_cons_of_neg kind, rest, List.filter_cons_of_neg kind]
  | case4 a kept b dropped later ih =>
    have rest := ih fun first rest suffix die hdie kind other hother =>
      h first rest suffix die hdie kind other (List.mem_cons_of_mem b hother)
    by_cases kind : p b = true
    · have none : (a :: kept).filter p = [] := by
        apply List.filter_eq_nil_iff.mpr
        intro die hdie same
        exact later (h a kept List.suffix_rfl die hdie same b List.mem_cons_self kind)
      rw [List.filter_cons_of_pos kind, rest, none, List.filter_cons_of_pos kind]
      rfl
    · rw [List.filter_cons_of_neg kind, rest, List.filter_cons_of_neg kind]

/-- A dropped die goes in front only of kept dice of greater faces. -/
theorem filter_face_merge (face : Int) (ordered : kept.Pairwise (·.face ≤ ·.face)) :
    (kept.merge dropped ShownDie.before).filter (·.face = face) =
      (kept ++ dropped).filter (·.face = face) := by
  rw [List.filter_append]
  apply filter_merge
  intro a rest suffix die hdie here b _ there
  have above : a.face ≤ die.face := by
    rcases List.mem_cons.mp hdie with rfl | hdie
    · exact Int.le_refl _
    · exact List.rel_of_pairwise_cons (ordered.sublist suffix.sublist) hdie
  rw [of_decide_eq_true here, ← of_decide_eq_true there] at above
  exact decide_eq_true above

end Merging

namespace Tally

variable (tally : Tally)

/-- The kept dice, and the dropped ones after them. -/
def rows : List ShownDie := tally.rolls.map (⟨·, false⟩) ++ tally.dropped.map (⟨·, true⟩)

theorem dice_perm : tally.dice.Perm tally.rows := List.merge_perm_append _

theorem map_face_rows : tally.rows.map ShownDie.face = tally.rolls ++ tally.dropped := by
  simp [rows, Function.comp_def]

theorem filter_kept_dice : (tally.dice.filter (!·.dropped)).map ShownDie.face = tally.rolls := by
  rw [dice, filter_merge (by simp)]
  simp [List.filter_map, Function.comp_def]

theorem filter_dropped_dice :
    (tally.dice.filter (·.dropped)).map ShownDie.face = tally.dropped := by
  rw [dice, filter_merge]
  · simp [List.filter_map, Function.comp_def]
  · intro a rest suffix die hdie gone
    obtain ⟨face, -, rfl⟩ := List.mem_map.mp (suffix.mem hdie)
    exact absurd gone Bool.false_ne_true

section Ascending

variable {tally} (rolls : tally.rolls.Pairwise (· ≤ ·)) (dropped : tally.dropped.Pairwise (· ≤ ·))

include rolls dropped

theorem dice_ascending : tally.dice.Pairwise (·.face ≤ ·.face) := by
  have merged : tally.dice.Pairwise fun a b => ShownDie.before a b = true := by
    apply List.pairwise_merge
    · intro a b c
      simp only [ShownDie.before, decide_eq_true_eq]
      omega
    · intro a b
      simp only [ShownDie.before, Bool.or_eq_true, decide_eq_true_eq]
      omega
    · simpa [List.pairwise_map, ShownDie.before] using rolls
    · simpa [List.pairwise_map, ShownDie.before] using dropped
  simpa [ShownDie.before] using merged

theorem sortsStably_dice : SortsStably tally.rows tally.dice where
  ascending := dice_ascending rolls dropped
  stable face := filter_face_merge face (by simpa [List.pairwise_map] using rolls)

theorem map_face_dice_pairwise : (tally.dice.map ShownDie.face).Pairwise (· ≤ ·) :=
  List.pairwise_map.mpr (dice_ascending rolls dropped)

theorem kept_first_in_dice :
    tally.dice.Pairwise fun a b => a.face = b.face → a.dropped = true → b.dropped = true := by
  have parted : tally.rows.Pairwise fun a b => a.dropped = true → b.dropped = true := by
    simp [rows, List.pairwise_append, List.pairwise_map, List.pairwise_of_forall]
  apply List.pairwise_of_forall_sublist
  intro a b order same
  exact parted.forall_sublist ((sortsStably_dice rolls dropped).pair_sublist same order)

end Ascending

theorem map_face_dice_perm {faces : List Int} (whole : (tally.rolls ++ tally.dropped).Perm faces) :
    (tally.dice.map ShownDie.face).Perm faces :=
  (tally.map_face_rows ▸ tally.dice_perm.map ShownDie.face).trans whole

end Tally

namespace Expression

/-- Both rows of a tally are ascending, and together they are the faces that it was made of. -/
theorem score_rows (e : Expression) (faces : List Int) :
    (e.score faces).rolls.Pairwise (· ≤ ·) ∧ (e.score faces).dropped.Pairwise (· ≤ ·) ∧
      ((e.score faces).rolls ++ (e.score faces).dropped).Perm faces := by
  have whole : (ascending faces ++ []).Perm faces := by simpa using ascending_perm faces
  unfold score
  split
  · exact ⟨ascending_pairwise faces, .nil, whole⟩
  · rename_i rule amount _
    have cut := rule.cut_apply amount faces
    exact ⟨cut.kept_ascending, cut.dropped_ascending, cut.perm⟩
  · exact ⟨ascending_pairwise faces, .nil, whole⟩

end Expression

/-- Merging takes each row of dice in its own order. Where both are ascending it sorts the kept
dice and the dropped ones after them stably, so that a kept die is shown before every dropped one
of its face. An expression that does not expand shows the faces drawn for it in ascending order,
unless its source has too few. -/
theorem Tally.dice_stable :
    (∀ tally : Tally, (tally.dice.filter (!·.dropped)).map ShownDie.face = tally.rolls ∧
      (tally.dice.filter (·.dropped)).map ShownDie.face = tally.dropped) ∧
    (∀ tally : Tally, tally.rolls.Pairwise (· ≤ ·) → tally.dropped.Pairwise (· ≤ ·) →
      (∀ dice, SortsStably (tally.rolls.map (⟨·, false⟩) ++ tally.dropped.map (⟨·, true⟩)) dice ↔
        dice = tally.dice) ∧
      tally.dice.Pairwise fun a b => a.face = b.face → a.dropped = true → b.dropped = true) ∧
    ∀ {σ : Type} [DiceSource σ] (e : Expression) (text : String) (cap : Int) (tray : Tray σ),
      e.expansion? = none →
      let played := (e.roll text cap).run tray
      (∀ (faces : List Int) (after : σ), faces.length = e.count.toNat →
        Gives tray.source (throwsOf e.die faces) after →
        ∃ tally : Tally, played.ending = .finished tally ∧
          played.tray = ⟨after, tray.drawn + faces.length⟩ ∧
          (tally.dice.map ShownDie.face).Pairwise (· ≤ ·) ∧
          (tally.dice.map ShownDie.face).Perm faces) ∧
      ((∀ (faces : List Int) (after : σ), faces.length = e.count.toNat →
        ¬ Gives tray.source (throwsOf e.die faces) after) → played.ending = .exhausted) := by
  refine ⟨?_, ?_, ?_⟩
  · intro tally
    exact ⟨tally.filter_kept_dice, tally.filter_dropped_dice⟩
  · intro tally rolls dropped
    have sorts := sortsStably_dice rolls dropped
    refine ⟨fun dice => ⟨fun other => sorts.unique other, ?_⟩, kept_first_in_dice rolls dropped⟩
    rintro rfl
    exact sorts
  · intro σ _ e text cap tray plain played
    refine ⟨?_, e.exhausted_of_plain plain text cap⟩
    intro faces after size given
    obtain ⟨rolls, dropped, whole⟩ := e.score_rows faces
    obtain ⟨ending, left⟩ := e.run_of_plain plain text cap size given
    exact ⟨e.score faces, ending, left, map_face_dice_pairwise rolls dropped,
      (e.score faces).map_face_dice_perm whole⟩

theorem Tally.dice_stable_with_ties :
    let e : Expression := ⟨4, .numbered 6, some (.select .keepHighest 2), none⟩
    let tray := Script.tray [4, 2, 4, 4]
    let played := (e.roll "4d6kh2" 100).run tray
    let tally : Tally := ⟨[4, 4], [2, 4], 8⟩
    e.expansion? = none ∧ Gives tray.source (throwsOf e.die [4, 2, 4, 4]) ⟨[]⟩ ∧
      tally.dice = [⟨2, true⟩, ⟨4, false⟩, ⟨4, false⟩, ⟨4, true⟩] ∧
      ∃ made : Tally, played.ending = .finished made ∧
        made.dice.map ShownDie.face = [2, 4, 4, 4] := by
  intro e tray played tally
  have plain : e.expansion? = none := rfl
  have given : Gives tray.source (throwsOf e.die [4, 2, 4, 4]) ⟨[]⟩ := gives_script_iff.mpr rfl
  refine ⟨plain, given, ?_, ?_⟩
  · have sorts : SortsStably (tally.rolls.map (⟨·, false⟩) ++ tally.dropped.map (⟨·, true⟩))
        [⟨2, true⟩, ⟨4, false⟩, ⟨4, false⟩, ⟨4, true⟩] := by
      refine ⟨by decide, fun face => ?_⟩
      by_cases low : 2 = face
      · subst low
        rfl
      · simp [tally, List.filter_cons, low]
    exact (((Tally.dice_stable.2.1 tally (by decide) (by decide)).1 _).mp sorts).symm
  · obtain ⟨made, ending, -, ordered, whole⟩ :=
      (Tally.dice_stable.2.2 e "4d6kh2" 100 tray plain).1 [4, 2, 4, 4] ⟨[]⟩ rfl given
    refine ⟨made, ending, ?_⟩
    exact (whole.trans (by decide)).eq_of_pairwise' ordered (by decide)

end DiceRoller
