import DiceRoller.Proofs.Pool.BestCut
import DiceRoller.Proofs.Pool.Making

/-!
# Rules that go together

Every selection rule has an opposite, which keeps what the rule drops, a counterpart, which is
told how many dice to drop where the rule is told how many to keep or the other way round, and
a mirrored rule, which works from the other end. So one rule is enough to know what all four
make of the same faces (`makes_select`).
-/

namespace DiceRoller

namespace Selection

/-- The rule that cuts at the same place and keeps the other side. -/
def opposite : Selection → Selection
  | .keepHighest => .dropHighest
  | .keepLowest => .dropLowest
  | .dropHighest => .keepHighest
  | .dropLowest => .keepLowest

/-- The rule that keeps the same side and counts the dice of the other one. -/
def counterpart : Selection → Selection
  | .keepHighest => .dropLowest
  | .keepLowest => .dropHighest
  | .dropHighest => .keepLowest
  | .dropLowest => .keepHighest

/-- The rule that does the same from the other end. -/
def mirrored : Selection → Selection
  | .keepHighest => .keepLowest
  | .keepLowest => .keepHighest
  | .dropHighest => .dropLowest
  | .dropLowest => .dropHighest

end Selection

def Selected.swap (cut : Selected) : Selected := ⟨cut.dropped, cut.kept⟩

/-- The faces with their signs changed. An ascending row is ascending again. -/
def mirror (faces : List Int) : List Int := (faces.map (-·)).reverse

def Selected.mirror (cut : Selected) : Selected :=
  ⟨DiceRoller.mirror cut.kept, DiceRoller.mirror cut.dropped⟩

section Mirroring

theorem length_mirror (faces : List Int) : (mirror faces).length = faces.length := by
  simp [mirror]

theorem ascending_negated (faces : List Int) :
    ascending (faces.map (-·)) = mirror (ascending faces) := by
  apply ascending_eq_of_ordered
  · rw [mirror, List.pairwise_reverse, List.pairwise_map]
    exact (ascending_pairwise faces).imp Int.neg_le_neg
  · exact ((ascending_perm faces).symm.map _).trans (List.reverse_perm _).symm

variable {pool : List Int} {place : Nat} (inside : place ≤ pool.length)

include inside

theorem drop_mirror : (mirror pool).drop (pool.length - place) = mirror (pool.take place) := by
  rw [mirror, List.drop_reverse, List.length_map, Nat.sub_sub_self inside, ← List.map_take, mirror]

theorem take_mirror : (mirror pool).take (pool.length - place) = mirror (pool.drop place) := by
  rw [mirror, List.take_reverse, List.length_map, Nat.sub_sub_self inside, ← List.map_drop, mirror]

theorem keepAbove_mirror :
    keepAbove (mirror pool) (pool.length - place) = (keepBelow pool place).mirror := by
  have cut := cutPlace_of_le inside
  have cut' := cutPlace_of_le (Nat.sub_le pool.length place)
  rw [Int.ofNat_sub inside] at cut'
  rw [keepAbove, length_mirror, cut', drop_mirror inside, take_mirror inside, keepBelow, cut]
  rfl

theorem keepBelow_mirror :
    keepBelow (mirror pool) (pool.length - place) = (keepAbove pool place).mirror :=
  congrArg Selected.swap (keepAbove_mirror inside)

end Mirroring

namespace Selection

variable (rule : Selection) (amount : Int) (pool : List Int)

theorem apply_opposite : rule.opposite.apply amount pool = (rule.apply amount pool).swap := by
  cases rule <;> rfl

theorem apply_counterpart :
    rule.counterpart.apply (pool.length - amount) pool = rule.apply amount pool := by
  cases rule <;> simp only [counterpart, apply, Int.sub_sub_self]

/-- Only a cut inside the pool has the same place when it is counted from the other end. -/
theorem apply_mirrored {amount : Int} {pool : List Int} (low : 0 ≤ amount)
    (high : amount ≤ pool.length) :
    rule.mirrored.apply amount (mirror pool) = (rule.apply amount pool).mirror := by
  obtain ⟨place, rfl⟩ := Int.eq_ofNat_of_zero_le low
  have inside : place ≤ pool.length := Int.ofNat_le.mp high
  have above := keepAbove_mirror (Nat.sub_le pool.length place)
  have below := keepBelow_mirror (Nat.sub_le pool.length place)
  rw [Int.ofNat_sub inside, Int.sub_sub_self] at above below
  cases rule with
  | keepHighest => exact below
  | keepLowest => simpa only [mirrored, apply, length_mirror] using keepAbove_mirror inside
  | dropHighest => exact above
  | dropLowest => simpa only [mirrored, apply, length_mirror] using keepBelow_mirror inside

end Selection

namespace Tally

/-- The second tally keeps what the first drops and drops what it keeps. Together they count
every die once, and the bonus once more than the tally of the whole pool. -/
structure Complements (whole : Tally) (bonus : Int) (tally rest : Tally) : Prop where
  rolls : rest.rolls = tally.dropped
  dropped : rest.dropped = tally.rolls
  total : tally.total + rest.total = whole.total + bonus

/-- Both rows of the second tally are those of the first, negated and reversed. -/
structure Mirrors (tally mirrored : Tally) : Prop where
  rolls : mirrored.rolls = (tally.rolls.map (-·)).reverse
  dropped : mirrored.dropped = (tally.dropped.map (-·)).reverse

theorem complements_ofSelected (bonus : Int) {cut : Selected} {pool : List Int}
    (perm : (cut.kept ++ cut.dropped).Perm pool) :
    Complements (ofSelected bonus ⟨pool, []⟩) bonus (ofSelected bonus cut)
      (ofSelected bonus cut.swap) := by
  refine ⟨rfl, rfl, ?_⟩
  have sums : cut.kept.sum + cut.dropped.sum = pool.sum := by
    rw [← List.sum_append, perm.sum_eq]
  change cut.kept.sum + bonus + (cut.dropped.sum + bonus) = pool.sum + bonus + bonus
  omega

theorem mirrors_ofSelected (bonus : Int) (cut : Selected) :
    (ofSelected bonus cut).Mirrors (ofSelected bonus cut.mirror) := ⟨rfl, rfl⟩

end Tally

namespace Expression

/-- What a rule makes of the faces drawn, its counterpart makes as well when it counts the other
dice. Its opposite makes the complement of it in the plain roll. And where a cut of so many
dice is inside the pool, the mirrored rule makes the mirror image of it of the negated faces. -/
theorem makes_select (die : Die) (constant : Option Int) {count : Int} {faces : List Int}
    (size : faces.length = count) (rule : Selection) (amount : Int) :
    let plain : Expression := ⟨count, die, none, constant⟩
    let select (rule : Selection) (amount : Int) : Expression :=
      ⟨count, die, some (.select rule amount), constant⟩
    ∃ whole tally rest : Tally, plain.Makes faces whole ∧
      (select rule amount).Makes faces tally ∧
      (select rule.counterpart (count - amount)).Makes faces tally ∧
      (select rule.opposite amount).Makes faces rest ∧
      whole.Complements (constant.getD 0) tally rest ∧
      (0 ≤ amount → amount ≤ count → ∃ mirrored : Tally,
        (select rule.mirrored amount).Makes (faces.map (-·)) mirrored ∧ tally.Mirrors mirrored) := by
  intro plain select
  let bonus := constant.getD 0
  let cut := rule.apply amount (ascending faces)
  have all : faces.length = count.toNat := by omega
  have length : ((ascending faces).length : Int) = count := by rw [length_ascending, size]
  have score (rule : Selection) (amount : Int) (faces : List Int) :
      (select rule amount).score faces = .ofSelected bonus (rule.apply amount (ascending faces)) :=
    rfl
  refine ⟨.ofSelected bonus ⟨ascending faces, []⟩, .ofSelected bonus cut, .ofSelected bonus cut.swap,
    makes_score rfl all, makes_score rfl all, ?_, ?_, ?_, ?_⟩
  · rw [makes_iff rfl all, score, ← length, rule.apply_counterpart]
  · rw [makes_iff rfl all, score, rule.apply_opposite]
  · exact Tally.complements_ofSelected bonus (rule.apply_perm amount (ascending faces))
  · intro low high
    rw [← length] at high
    refine ⟨.ofSelected bonus cut.mirror, ?_, Tally.mirrors_ofSelected bonus cut⟩
    rw [makes_iff rfl (by rw [List.length_map, all]), score, ascending_negated,
      rule.apply_mirrored low high]

theorem makes_select_lowest_of_four :
    let faces : List Int := [3, 6, 2, 4]
    let select (rule : Selection) (amount : Int) : Expression :=
      ⟨4, .numbered 6, some (.select rule amount), some 5⟩
    (faces.length : Int) = 4 ∧ (0 : Int) ≤ 1 ∧ (1 : Int) ≤ 4 ∧
      (select .keepLowest 1).Makes faces ⟨[2], [3, 4, 6], 7⟩ ∧
      (select .dropHighest 3).Makes faces ⟨[2], [3, 4, 6], 7⟩ ∧
      (select .dropLowest 1).Makes faces ⟨[3, 4, 6], [2], 18⟩ ∧
      ∃ mirrored : Tally, (select .keepHighest 1).Makes [-3, -6, -2, -4] mirrored ∧
        mirrored.rolls = [-2] ∧ mirrored.dropped = [-6, -4, -3] := by
  intro faces select
  have size : (faces.length : Int) = 4 := rfl
  have sorted : ascending faces = [2, 3, 4, 6] := ascending_eq_of_ordered (by decide) (by decide)
  have score : (select .keepLowest 1).score faces = ⟨[2], [3, 4, 6], 7⟩ := by
    rw [Expression.score, sorted]
    rfl
  have all : (⟨4, .numbered 6, none, some 5⟩ : Expression).score faces =
      ⟨[2, 3, 4, 6], [], 20⟩ := by
    rw [Expression.score, sorted]
    rfl
  obtain ⟨whole, tally, rest, plain, least, counted, opposite, complements, reflects⟩ :=
    makes_select (.numbered 6) (some 5) size .keepLowest 1
  obtain rfl := ((makes_iff rfl rfl).mp plain).trans all
  obtain rfl := ((makes_iff rfl rfl).mp least).trans score
  obtain ⟨mirrored, highest, mirrors⟩ := reflects (by decide) (by decide)
  obtain ⟨rolls, dropped, total⟩ := rest
  obtain ⟨rfl, rfl, sum⟩ := complements
  obtain rfl : total = 18 := by
    change (7 : Int) + total = 20 + 5 at sum
    omega
  exact ⟨size, by decide, by decide, least, counted, opposite, mirrored, highest, mirrors.rolls,
    mirrors.dropped⟩

end Expression

end DiceRoller
