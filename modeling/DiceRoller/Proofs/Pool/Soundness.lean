import DiceRoller.Proofs.Expression.Bounds
import DiceRoller.Proofs.Pool.BestCut
import DiceRoller.Proofs.Roll.Ensuring

/-!
# Sound tallies

What the tally of an expression keeps to when its dice show faces that they have: how many
faces are reported, which ones they can be, and between which numbers the total lies
(`sound_of_draws`).
-/

namespace DiceRoller

def Die.lowest : Die → Int
  | .numbered _ => 1
  | .fate => -1

def Die.highest : Die → Int
  | .numbered sides => sides
  | .fate => 1

theorem Die.shows_iff {die : Die} {face : Int} :
    die.Shows face ↔ die.lowest ≤ face ∧ face ≤ die.highest := by
  cases die <;> exact Iff.rfl

/-- The sum of so many faces lies between as many of the lowest and as many of the highest. -/
theorem sum_between {die : Die} {faces : List Int} (h : ∀ face ∈ faces, die.Shows face) :
    faces.length * die.lowest ≤ faces.sum ∧ faces.sum ≤ faces.length * die.highest := by
  have within (face : Int) (hface : face ∈ faces) := Die.shows_iff.mp (h face hface)
  have low := faces.card_nsmul_le_sum die.lowest fun face hface => (within face hface).1
  have high := faces.sum_le_card_nsmul die.highest fun face hface => (within face hface).2
  rw [Int.nsmul_eq_mul] at low high
  exact ⟨low, high⟩

namespace Tally

/-- The tally adds up `kept` of the dice. -/
structure SumsKept (e : Expression) (kept : Int) (tally : Tally) : Prop where
  size : (tally.rolls.length : Int) + tally.dropped.length = e.count
  shows : ∀ face ∈ tally.rolls ++ tally.dropped, e.die.Shows face
  kept : (tally.rolls.length : Int) = kept
  total : tally.total = tally.rolls.sum + e.bonus
  low : e.bonus + tally.rolls.length * e.die.lowest ≤ tally.total
  high : tally.total ≤ e.bonus + tally.rolls.length * e.die.highest

/-- The tally counts the faces that reach the threshold. -/
structure CountsHits (e : Expression) (threshold : Int) (tally : Tally) : Prop where
  dropped : tally.dropped = []
  shows : ∀ face ∈ tally.rolls, e.die.Shows face
  total : tally.total - e.bonus = hits threshold tally.rolls

/-- The tally counts which of the dice exploded. -/
structure CountsExploded (e : Expression) (tally : Tally) : Prop where
  dropped : tally.dropped = []
  size : (tally.rolls.length : Int) = e.count
  low : 0 ≤ tally.total - e.bonus
  high : tally.total - e.bonus ≤ e.count

end Tally

namespace Expression

/-- The tally is one that the expression can have under a cap on the dice of a pool that expands. -/
structure Sound (e : Expression) (cap : Int) (tally : Tally) : Prop where
  rolls_ascending : tally.rolls.Pairwise (· ≤ ·)
  dropped_ascending : tally.dropped.Pairwise (· ≤ ·)
  counted : match e.modifier with
    | none => tally.SumsKept e e.count
    | some (.select rule amount) => tally.SumsKept e (rule.keeps amount e.count)
    | some (.count .versus threshold) =>
      tally.CountsHits e threshold ∧ (tally.rolls.length : Int) = e.count
    | some (.count .exploding _) => tally.CountsExploded e
    | some (.count .reroll threshold) =>
      tally.CountsHits e threshold ∧ e.count ≤ tally.rolls.length ∧ tally.rolls.length ≤ cap ∧
        tally.total - e.bonus = tally.rolls.length - e.count

section Scoring

variable {e : Expression} {faces : List Int} (shows : ∀ face ∈ faces, e.die.Shows face)

include shows

theorem sumsKept_ofSelected {selected : Selected} {kept : Int}
    (perm : (selected.kept ++ selected.dropped).Perm faces) (size : (faces.length : Int) = e.count)
    (length : (selected.kept.length : Int) = kept) :
    (Tally.ofSelected e.bonus selected).SumsKept e kept := by
  have whole := perm.length_eq
  rw [List.length_append] at whole
  have shown : ∀ face ∈ selected.kept ++ selected.dropped, e.die.Shows face := fun face hface =>
    shows face (perm.mem_iff.mp hface)
  have between := sum_between fun face hface => shown face (List.mem_append_left _ hface)
  have total : (Tally.ofSelected e.bonus selected).total = selected.kept.sum + e.bonus := rfl
  refine ⟨?_, shown, length, total, ?_, ?_⟩
  · change (selected.kept.length : Int) + selected.dropped.length = e.count
    omega
  · rw [total, Int.add_comm]
    exact Int.add_le_add_right between.1 e.bonus
  · rw [total, Int.add_comm e.bonus]
    exact Int.add_le_add_right between.2 e.bonus

theorem countsHits_ofHits (threshold : Int) :
    (Tally.ofHits threshold e.bonus faces).CountsHits e threshold := by
  have same : hits threshold (ascending faces) = hits threshold faces :=
    (ascending_perm faces).countP_eq _
  refine ⟨rfl, fun face hface => shows face ((ascending_perm faces).mem_iff.mp hface), ?_⟩
  change (hits threshold faces : Int) + e.bonus - e.bonus = hits threshold (ascending faces)
  omega

end Scoring

theorem countsExploded_ofChains {e : Expression} {threshold : Int} {faces : List Int}
    (size : (faces.countP (· < threshold) : Int) = e.count) :
    (Tally.ofChains e.bonus (chainsFrom threshold [] faces)).CountsExploded e := by
  have chains : (chainsFrom threshold [] faces).length = _ := length_chainsFrom [] faces
  have few : (chainsFrom threshold [] faces).countP isExtended ≤ _ := List.countP_le_length
  have total : (Tally.ofChains e.bonus (chainsFrom threshold [] faces)).total =
    (chainsFrom threshold [] faces).countP isExtended + e.bonus := rfl
  refine ⟨rfl, ?_, by omega, by omega⟩
  rw [Tally.ofChains, length_ascending, List.length_map, chains, size]

section Drawing

variable {e : Expression} {most cap : Int} (within : e.WithinBounds most) {faces : List Int}
  (shows : ∀ face ∈ faces, e.die.Shows face)

include shows

include within in
theorem sound_of_plain (plain : e.expansion? = none) (size : (faces.length : Int) = e.count) :
    e.Sound cap (e.score faces) := by
  have ordered := ascending_pairwise faces
  unfold score
  match hm : e.modifier with
  | none =>
    have whole : (ascending faces ++ []).Perm faces := by simpa using ascending_perm faces
    refine ⟨ordered, .nil, ?_⟩
    simp only [hm]
    exact sumsKept_ofSelected shows whole size (by rw [length_ascending, size])
  | some (.select rule amount) =>
    have cut := rule.cut_apply amount faces
    have inside := within.amount_mem rule amount hm
    have kept : ((rule.apply amount (ascending faces)).kept.length : Int) =
        rule.keeps amount e.count := by
      rw [← size, ← length_ascending faces] at inside ⊢
      exact rule.length_kept (by omega) inside.2
    refine ⟨cut.kept_ascending, cut.dropped_ascending, ?_⟩
    simp only [hm]
    exact sumsKept_ofSelected shows cut.perm size kept
  | some (.count .versus threshold) =>
    refine ⟨ordered, .nil, ?_⟩
    simp only [hm]
    exact ⟨countsHits_ofHits shows threshold, by rw [Tally.ofHits, length_ascending, size]⟩
  | some (.count .exploding _) | some (.count .reroll _) => simp [expansion?, hm] at plain

/-- The misses among the faces of an expanding pool are as many as its dice. -/
theorem sound_of_expanded {threshold : Int} (kind : e.expansion? = some threshold)
    (misses : (faces.countP (· < threshold) : Int) = e.count) (few : (faces.length : Int) ≤ cap) :
    e.Sound cap (e.tallyOf faces) := by
  have both := hits_add_misses threshold faces
  match hm : e.modifier with
  | some (.count .exploding threshold) =>
    simp only [expansion?, hm, Option.some.injEq] at kind
    subst kind
    rw [tallyOf, hm]
    refine ⟨ascending_pairwise _, .nil, ?_⟩
    simp only [hm]
    exact countsExploded_ofChains misses
  | some (.count .reroll threshold) =>
    simp only [expansion?, hm, Option.some.injEq] at kind
    subst kind
    have length : (Tally.ofHits threshold e.bonus faces).rolls.length = faces.length :=
      length_ascending faces
    have total : (Tally.ofHits threshold e.bonus faces).total =
      hits threshold faces + e.bonus := rfl
    rw [tallyOf, hm]
    change e.Sound cap (e.score faces)
    rw [score, hm]
    refine ⟨ascending_pairwise faces, .nil, ?_⟩
    simp only [hm]
    exact ⟨countsHits_ofHits shows threshold, by omega, by omega, by omega⟩
  | none | some (.select _ _) | some (.count .versus _) => simp [expansion?, hm] at kind

include within in
/-- The tally of an expression within its bounds, however its dice fall. -/
theorem sound_of_draws {tally : Tally} (draws : e.Draws cap faces (some tally)) :
    e.Sound cap tally := by
  have pos := within.count_pos
  generalize made : some tally = outcome at draws
  cases draws with
  | once plain length =>
    cases made
    rw [tallyOf_of_plain plain]
    exact sound_of_plain within shows plain (by omega)
  | excluded => cases made
  | expanded kind fits expands =>
    have misses := made ▸ expands
    cases expands with
    | spent => cases made
    | completed few under last =>
      cases made
      have length := misses.length_le
      exact sound_of_expanded shows kind misses.countP_eq (by omega)

end Drawing

end Expression

end DiceRoller
