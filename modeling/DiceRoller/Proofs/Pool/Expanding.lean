import DiceRoller.Pool.Tally
import DiceRoller.Proofs.Numeral
import DiceRoller.Proofs.Pool.Chains
import Mathlib.Algebra.BigOperators.Group.List.Basic

/-!
# Rolling pools that expand

On a supply of faces an expanding expression is refused before the first draw, or stops at the
end of its budget, or draws up to the miss that closes its last die. An exploding one adds up
the chains of the faces drawn (`roll_exploding`), a rerolling one lists the faces themselves,
and with equal parameters both draw the same (`roll_exploding_reroll`).
-/

namespace DiceRoller

theorem sum_ascending (faces : List Int) : (ascending faces).sum = faces.sum :=
  (ascending_perm faces).sum_eq

section Counting

variable {threshold : Int} {faces : List Int} {chains : List (List Int)}
  (h : IsCut threshold faces chains) (bonus : Int)

include h

theorem IsCut.sum_rolls :
    (Tally.ofHits threshold bonus faces).rolls.sum = (Tally.ofChains bonus chains).rolls.sum := by
  have whole : (chains.map sumFaces).sum = faces.sum := by
    rw [← h.1, List.sum_flatten]
    rfl
  exact (sum_ascending faces).trans ((sum_ascending _).trans whole).symm

theorem IsCut.total_eq : (Tally.ofHits threshold bonus faces).total =
    bonus + (Tally.ofHits threshold bonus faces).rolls.length - chains.length := by
  have both := hits_add_misses threshold faces
  rw [Tally.ofHits, length_ascending, h.length_eq]
  change (hits threshold faces + bonus : Int) = _
  omega

theorem IsCut.total_le :
    (Tally.ofChains bonus chains).total ≤ (Tally.ofHits threshold bonus faces).total :=
  Int.add_le_add_right (Int.ofNat_le.mpr h.countP_isExtended_le) bonus

end Counting

namespace Supply

variable {σ : Type} [DiceSource σ] {die : Die} (supply : Supply σ die) {threshold : Int}

theorem countP_faces (k : Nat) :
    (supply.faces k).countP (· < threshold) = Nat.count (supply.Misses threshold) k := by
  induction k with
  | zero => rfl
  | succ k ih =>
    rw [faces_succ, List.countP_append, ih, Nat.count_succ]
    by_cases miss : supply.face k < threshold
    · rw [if_pos (show supply.Misses threshold k from miss)]
      simp [miss]
    · rw [if_neg (show ¬ supply.Misses threshold k from miss)]
      simp [miss]

section Closing

variable {count budget : Nat} (pos : 1 ≤ count)
  (enough : count ≤ Nat.count (supply.Misses threshold) budget)

include pos enough

theorem lt_card_misses (finite : (Set.ofPred (supply.Misses threshold)).Finite) :
    count - 1 < finite.toFinset.card := by
  have most := Nat.count_le_card finite budget
  omega

theorem count_closing :
    Nat.count (supply.Misses threshold) (supply.closing threshold count) = count := by
  rw [closing, Nat.count_nth_succ (supply.lt_card_misses pos enough)]
  omega

theorem countP_faces_closing :
    (supply.faces (supply.closing threshold count)).countP (· < threshold) = count :=
  (supply.countP_faces _).trans (supply.count_closing pos enough)

/-- The last face drawn is a miss, so that no chain is left open. -/
theorem isCut_closing : IsCut threshold (supply.faces (supply.closing threshold count))
    (chainsFrom threshold [] (supply.faces (supply.closing threshold count))) := by
  have miss := Nat.nth_mem (count - 1) (supply.lt_card_misses pos enough)
  rw [closing, supply.faces_succ]
  exact isCut_chainsFrom _ miss

end Closing

/-- The budget of an expanding pool allows its first dice and brings a miss for each of them. -/
structure Closes (threshold count cap : Int) : Prop where
  within : count ≤ cap
  enough : count.toNat ≤ Nat.count (supply.Misses threshold) cap.toNat

end Supply

theorem Failure.overflow_eq_fault (text : String) {cap : Int} (h : cap.natAbs < Numeral.bound) :
    ∃ detail, Failure.overflow text cap = .fault ⟨.overflow, detail⟩ := by
  simp only [Failure.overflow, Numeral.write_of_lt h]
  exact ⟨_, rfl⟩

namespace Expression

section Expanding

variable {σ α : Type} [DiceSource σ] {die : Die} {supply : Supply σ die} {threshold : Int}
  {e : Expression} {cap : Int} {pool : Roll Failure (Option α)} {result : List Int → α}
  (stops : supply.Stops threshold cap.toNat e.count.toNat pool result)
  (text : String) (tally : α → Tally) (before : Nat)

include stops

/-- A pool above its cap is not started, and any other that does not close draws all it may. -/
theorem run_expanding_of_not_closes (hcap : cap.natAbs < Numeral.bound)
    (h : ¬ supply.Closes threshold e.count cap) :
    ∃ detail, (e.expanding text cap tally pool).run (supply.tray before 0) =
      ⟨.stopped (.fault ⟨.overflow, detail⟩),
        supply.tray before (if cap < e.count then 0 else cap.toNat), []⟩ := by
  obtain ⟨detail, fault⟩ := Failure.overflow_eq_fault text hcap
  refine ⟨detail, ?_⟩
  by_cases exceeds : cap < e.count
  · rw [expanding, if_pos exceeds, if_pos exceeds, fault]
    rfl
  · have few : Nat.count (supply.Misses threshold) cap.toNat < e.count.toNat := by
      apply not_le.mp
      intro enough
      exact h ⟨not_lt.mp exceeds, enough⟩
    rw [expanding, if_neg exceeds, if_neg exceeds, Roll.run_bind, stops before, if_pos few, fault]
    rfl

theorem run_expanding_of_closes (h : supply.Closes threshold e.count cap) :
    (e.expanding text cap tally pool).run (supply.tray before 0) =
      ⟨.finished (tally (result (supply.faces (supply.closing threshold e.count.toNat)))),
        supply.tray before (supply.closing threshold e.count.toNat), []⟩ := by
  rw [expanding, if_neg (not_lt.mpr h.within), Roll.run_bind, stops before,
    if_neg (not_lt.mpr h.enough)]
  rfl

end Expanding

section Modes

variable {σ : Type} [DiceSource σ] {die : Die} (supply : Supply σ die) {count cap : Int}
  (threshold : Int)

/-- An exploding expression draws up to the miss that closes its last die and adds up the
chains between the misses, where a chain that was extended is one success. It overflows after
its whole budget when that brings too few misses, and before the first draw when the budget is
below the count. -/
theorem roll_exploding (pos : 1 ≤ count) (hcap : cap.natAbs < Numeral.bound)
    (constant : Option Int) (text : String) (before : Nat) :
    let e : Expression := ⟨count, die, some (.count .exploding threshold), constant⟩
    let played := (e.roll text cap).run (supply.tray before 0)
    let misses := Nat.count (supply.Misses threshold) cap.toNat
    let last := supply.closing threshold count.toNat
    (cap < count → ∃ detail,
      played = ⟨.stopped (.fault ⟨.overflow, detail⟩), supply.tray before 0, []⟩) ∧
    (count ≤ cap → misses < count → ∃ detail,
      played = ⟨.stopped (.fault ⟨.overflow, detail⟩), supply.tray before cap.toNat, []⟩) ∧
    (count ≤ cap → count ≤ misses →
      (∃! chains, IsCut threshold (supply.faces last) chains) ∧
      ∀ chains, IsCut threshold (supply.faces last) chains →
        chains.length = count ∧
        played = ⟨.finished ⟨ascending (chains.map List.sum), [],
          constant.getD 0 + chains.countP (1 < ·.length)⟩, supply.tray before last, []⟩) := by
  obtain ⟨n, rfl⟩ := Int.eq_ofNat_of_zero_le (by omega : 0 ≤ count)
  have one : 1 ≤ n := by omega
  have stops := supply.stops_explode (ε := Failure) threshold cap.toNat one
  intro e played misses last
  have short := run_expanding_of_not_closes (e := e) stops text (.ofChains e.bonus) before hcap
  refine ⟨?_, ?_, ?_⟩
  · intro exceeds
    rw [if_pos exceeds] at short
    apply short
    intro closes
    exact not_lt.mpr closes.within exceeds
  · intro within few
    rw [if_neg (not_lt.mpr within)] at short
    apply short
    intro closes
    exact not_lt.mpr (Int.ofNat_le.mpr closes.enough) few
  · intro within enough
    have enough : n ≤ misses := Int.ofNat_le.mp enough
    have cut := supply.isCut_closing one enough
    refine ⟨⟨_, cut, fun _ other => other.eq_chainsFrom⟩, ?_⟩
    intro chains other
    rw [other.eq_chainsFrom]
    constructor
    · exact congrArg Nat.cast (cut.length_eq.trans (supply.countP_faces_closing one enough))
    · have ended := run_expanding_of_closes (e := e) stops text (.ofChains e.bonus) before
        ⟨within, enough⟩
      refine ended.trans ?_
      rw [Tally.ofChains, add_comm]
      rfl

theorem roll_exploding_two_dice :
    let supply := (Seeded.ofSeed 12).supply (.numbered 6)
    let e : Expression := ⟨2, .numbered 6, some (.count .exploding 5), some 1⟩
    (1 : Int) ≤ 2 ∧ (100 : Int).natAbs < Numeral.bound ∧ supply.faces 5 = [6, 5, 5, 3, 4] ∧
      (e.roll "2d6ev5+1" 100).run (supply.tray 0 0) =
        ⟨.finished ⟨[4, 19], [], 2⟩, supply.tray 0 5, []⟩ := by
  intro supply e
  have pos : (1 : Int) ≤ 2 := by decide
  have hcap : (100 : Int).natAbs < Numeral.bound := by decide +kernel
  have drawn : supply.faces 5 = [6, 5, 5, 3, 4] := by decide +kernel
  have last : supply.closing 5 2 = 5 :=
    supply.closing_eq_succ 5 (k := 4) (by decide +kernel) (by decide +kernel)
  have misses : 2 ≤ Nat.count (supply.Misses 5) 100 :=
    (show 2 ≤ Nat.count (supply.Misses 5) 5 by decide +kernel).trans
      (Nat.count_monotone _ (by decide))
  have ended := (roll_exploding supply 5 pos hcap (some 1) "2d6ev5+1" 0).2.2
    (by decide) (by exact_mod_cast misses)
  have cut : IsCut 5 (supply.faces 5) [[6, 5, 5, 3], [4]] := by
    refine ⟨drawn.symm, ?_⟩
    intro chain hchain
    rcases List.mem_pair.mp hchain with rfl | rfl
    · exact ⟨[6, 5, 5], 3, rfl, by decide, by decide⟩
    · exact ⟨[], 4, rfl, by decide, by decide⟩
  have sorted : ascending ([[6, 5, 5, 3], [4]].map List.sum) = [4, 19] := by
    simp [ascending, List.mergeSort, List.MergeSort.Internal.splitInTwo]
  change supply.closing 5 (Int.toNat 2) = 5 at last
  simp only [last] at ended
  refine ⟨pos, hcap, drawn, ?_⟩
  exact sorted ▸ (ended.2 _ cut).2

/-- An exploding and a rerolling expression with equal parameters draw the same faces or
overflow after the same draws. The faces add up to the same, and the chains are no more
successes than the hits in them. -/
theorem roll_exploding_reroll (pos : 1 ≤ count) (hcap : cap.natAbs < Numeral.bound)
    (constant : Option Int) (text text' : String) (before : Nat) :
    let exploding : Expression := ⟨count, die, some (.count .exploding threshold), constant⟩
    let rerolling : Expression := ⟨count, die, some (.count .reroll threshold), constant⟩
    let first := (exploding.roll text cap).run (supply.tray before 0)
    let second := (rerolling.roll text' cap).run (supply.tray before 0)
    (∃ draws detail detail',
      first = ⟨.stopped (.fault ⟨.overflow, detail⟩), supply.tray before draws, []⟩ ∧
      second = ⟨.stopped (.fault ⟨.overflow, detail'⟩), supply.tray before draws, []⟩) ∨
    ∃ draws chained listed,
      first = ⟨.finished chained, supply.tray before draws, []⟩ ∧
      second = ⟨.finished listed, supply.tray before draws, []⟩ ∧
      listed.rolls = ascending (supply.faces draws) ∧ listed.dropped = [] ∧
      listed.rolls.sum = chained.rolls.sum ∧
      listed.total = constant.getD 0 + (supply.faces draws).countP (threshold ≤ ·) ∧
      listed.total = constant.getD 0 + listed.rolls.length - count ∧
      chained.total ≤ listed.total := by
  obtain ⟨n, rfl⟩ := Int.eq_ofNat_of_zero_le (by omega : 0 ≤ count)
  have one : 1 ≤ n := by omega
  have explodes := supply.stops_explode (ε := Failure) threshold cap.toNat one
  have rerolls := supply.stops_reroll (ε := Failure) threshold cap.toNat one
  intro exploding rerolling first second
  by_cases closes : supply.Closes threshold n cap
  · have cut := supply.isCut_closing one closes.enough
    have misses := supply.countP_faces_closing one closes.enough
    have hfirst := run_expanding_of_closes (e := exploding) explodes text
      (.ofChains exploding.bonus) before closes
    have hsecond := run_expanding_of_closes (e := rerolling) rerolls text' rerolling.score
      before closes
    refine Or.inr ⟨_, _, _, hfirst, hsecond, rfl, rfl, cut.sum_rolls _, add_comm _ _, ?_,
      cut.total_le _⟩
    rw [← misses, ← cut.length_eq]
    exact cut.total_eq _
  · obtain ⟨detail, hfirst⟩ := run_expanding_of_not_closes (e := exploding) explodes text
      (.ofChains exploding.bonus) before hcap closes
    obtain ⟨detail', hsecond⟩ := run_expanding_of_not_closes (e := rerolling) rerolls text'
      rerolling.score before hcap closes
    exact Or.inl ⟨_, detail, detail', hfirst, hsecond⟩

theorem roll_reroll_two_dice :
    let supply := (Seeded.ofSeed 12).supply (.numbered 6)
    let e : Expression := ⟨2, .numbered 6, some (.count .reroll 5), some 1⟩
    (1 : Int) ≤ 2 ∧ (100 : Int).natAbs < Numeral.bound ∧
      (e.roll "2d6rv5+1" 100).run (supply.tray 0 0) =
        ⟨.finished ⟨[3, 4, 5, 5, 6], [], 4⟩, supply.tray 0 5, []⟩ := by
  intro supply e
  have pos : (1 : Int) ≤ 2 := by decide
  have hcap : (100 : Int).natAbs < Numeral.bound := by decide +kernel
  have finishes : ((e.roll "2d6rv5+1" 100).run (supply.tray 0 0)).ending matches .finished _ := by
    decide +kernel
  have five : ((e.roll "2d6rv5+1" 100).run (supply.tray 0 0)).tray.drawn = 5 := by
    decide +kernel
  refine ⟨pos, hcap, ?_⟩
  rcases roll_exploding_reroll supply 5 pos hcap (some 1) "2d6ev5+1" "2d6rv5+1" 0
    with ⟨draws, _, detail, -, exceeds⟩ |
      ⟨draws, chained, listed, -, fine, rolls, dropped, -, total, -⟩
  · rw [exceeds] at finishes
    cases finishes
  · obtain ⟨listedRolls, listedDropped, listedTotal⟩ := listed
    rw [fine] at five
    obtain rfl : draws = 5 := (Nat.zero_add draws).symm.trans five
    have drawn : supply.faces 5 = [6, 5, 5, 3, 4] := by decide +kernel
    have sorted : ascending [6, 5, 5, 3, 4] = [3, 4, 5, 5, 6] := by
      simp [ascending, List.mergeSort, List.MergeSort.Internal.splitInTwo]
    simp only [drawn, sorted] at rolls total dropped
    subst rolls dropped total
    exact fine

end Modes

end Expression

end DiceRoller
