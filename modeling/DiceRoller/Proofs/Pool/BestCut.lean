import DiceRoller.Proofs.Pool.Courses
import DiceRoller.Proofs.Roll.Scripted
import Mathlib.Algebra.Order.BigOperators.Group.Multiset
import Mathlib.Algebra.Ring.Int.Defs
import Mathlib.Data.List.Sort
import Mathlib.Data.Multiset.UnionInter

/-!
# The best cut

A selection cuts a pool in such a place that its rule prefers every kept face to every dropped
one. By exchange the kept faces then have the best sum of all choices of as many dice
(`Cut.prefers_sum`). This holds for every amount, also for one that is negative or greater than
the pool. The order in which the faces were drawn makes no difference (`roll_select`).
-/

namespace DiceRoller

namespace Selection

/-- The rule would not rather have the second of two values. -/
def Prefers : Selection → Int → Int → Prop
  | .keepHighest, a, b | .dropLowest, a, b => b ≤ a
  | .keepLowest, a, b | .dropHighest, a, b => a ≤ b

/-- How many of `size` dice are to be kept. -/
def keeps (amount size : Int) : Selection → Int
  | .keepHighest | .keepLowest => amount
  | .dropHighest | .dropLowest => size - amount

theorem prefers_refl (rule : Selection) (a : Int) : rule.Prefers a a := by
  cases rule <;> exact Int.le_refl a

theorem Prefers.add {rule : Selection} {a b c d : Int} (first : rule.Prefers a b)
    (second : rule.Prefers c d) : rule.Prefers (a + c) (b + d) := by
  cases rule <;> exact Int.add_le_add first second

theorem Prefers.sum {rule : Selection} {a b : Multiset Int} (h : a.Rel rule.Prefers b) :
    rule.Prefers a.sum b.sum := by
  induction h with
  | zero => exact rule.prefers_refl _
  | cons first _ ih =>
    rw [Multiset.sum_cons, Multiset.sum_cons]
    exact first.add ih

/-- The pool is cut in two, in order, with what the rule prefers on the side that is kept. -/
structure Cut (rule : Selection) (pool : List Int) (cut : Selected) : Prop where
  kept_ascending : cut.kept.Pairwise (· ≤ ·)
  dropped_ascending : cut.dropped.Pairwise (· ≤ ·)
  perm : (cut.kept ++ cut.dropped).Perm pool
  prefers : ∀ kept ∈ cut.kept, ∀ dropped ∈ cut.dropped, rule.Prefers kept dropped

/-- The faces of another choice that are not kept can be exchanged for as many kept faces that
are not in it, each of which the rule prefers. -/
theorem Cut.prefers_sum {rule : Selection} {pool : List Int} {cut : Selected}
    (h : rule.Cut pool cut) {chosen : List Int} (inside : chosen.Subperm pool)
    (size : chosen.length = cut.kept.length) : rule.Prefers cut.kept.sum chosen.sum := by
  let kept : Multiset Int := cut.kept
  let choice : Multiset Int := chosen
  have within : choice ≤ kept + cut.dropped :=
    Multiset.coe_le.mpr (inside.trans h.perm.symm.subperm)
  have lost : choice - kept ≤ cut.dropped := tsub_le_iff_left.mpr within
  have split : choice - kept + kept ∩ choice = choice := by
    rw [Multiset.inter_comm, Multiset.sub_add_inter]
  have split' : kept - choice + kept ∩ choice = kept := Multiset.sub_add_inter kept choice
  have cards : (kept - choice).card = (choice - kept).card := by
    have whole := congrArg Multiset.card split
    have whole' := congrArg Multiset.card split'
    have same : choice.card = kept.card := size
    rw [Multiset.card_add] at whole whole'
    omega
  have better : (kept - choice).Rel rule.Prefers (choice - kept) := by
    apply Multiset.rel_of_forall ?_ cards
    intro a b ha hb
    have held : a ∈ cut.kept := Multiset.mem_of_le (Multiset.sub_le_self _ _) ha
    exact h.prefers a held b (Multiset.mem_of_le lost hb)
  have sums := (Prefers.sum better).add (rule.prefers_refl (kept ∩ choice).sum)
  rw [← Multiset.sum_add, ← Multiset.sum_add, split, split'] at sums
  exact sums

section Applying

variable {pool : List Int} (ordered : pool.Pairwise (· ≤ ·)) (place : Int)

include ordered

/-- Both sides of a place in an ordered pool are ordered, and the faces before it are no greater
than those after it. -/
theorem pairwise_of_place :
    (pool.take (cutPlace pool.length place)).Pairwise (· ≤ ·) ∧
      (pool.drop (cutPlace pool.length place)).Pairwise (· ≤ ·) ∧
      ∀ low ∈ pool.take (cutPlace pool.length place),
        ∀ high ∈ pool.drop (cutPlace pool.length place), low ≤ high := by
  rw [← List.take_append_drop (cutPlace pool.length place) pool, List.pairwise_append] at ordered
  exact ordered

theorem cut_keepAbove {rule : Selection} (high : ∀ a b, rule.Prefers a b ↔ b ≤ a) :
    rule.Cut pool (keepAbove pool place) := by
  obtain ⟨low, up, across⟩ := pairwise_of_place ordered place
  refine ⟨up, low, List.perm_append_comm.trans (.of_eq (keepAbove_append pool place)), ?_⟩
  intro kept hkept dropped hdropped
  exact (high _ _).mpr (across dropped hdropped kept hkept)

theorem cut_keepBelow {rule : Selection} (low : ∀ a b, rule.Prefers a b ↔ a ≤ b) :
    rule.Cut pool (keepBelow pool place) := by
  obtain ⟨below, above, across⟩ := pairwise_of_place ordered place
  refine ⟨below, above, .of_eq (keepBelow_append pool place), ?_⟩
  intro kept hkept dropped hdropped
  exact (low _ _).mpr (across kept hkept dropped hdropped)

omit ordered in
theorem cut_apply (rule : Selection) (amount : Int) (faces : List Int) :
    rule.Cut faces (rule.apply amount (ascending faces)) := by
  have ordered := ascending_pairwise faces
  have cut : rule.Cut (ascending faces) (rule.apply amount (ascending faces)) := by
    cases rule with
    | keepHighest => exact cut_keepAbove ordered _ fun _ _ => Iff.rfl
    | keepLowest => exact cut_keepBelow ordered _ fun _ _ => Iff.rfl
    | dropHighest => exact cut_keepBelow ordered _ fun _ _ => Iff.rfl
    | dropLowest => exact cut_keepAbove ordered _ fun _ _ => Iff.rfl
  exact { cut with perm := cut.perm.trans (ascending_perm faces) }

end Applying

theorem length_kept (rule : Selection) {amount : Int} {pool : List Int} (low : 0 ≤ amount)
    (high : amount ≤ pool.length) :
    (rule.apply amount pool).kept.length = rule.keeps amount pool.length := by
  cases rule <;>
    simp only [apply, keepAbove, keepBelow, keeps, cutPlace, List.length_take,
      List.length_drop] <;> split_ifs <;> omega

end Selection

theorem ascending_eq_of_ordered {faces ordered : List Int} (h : ordered.Pairwise (· ≤ ·))
    (same : faces.Perm ordered) : ascending faces = ordered :=
  ((ascending_perm faces).trans same).eq_of_pairwise' (ascending_pairwise faces) h

theorem ascending_eq_of_perm {faces other : List Int} (h : other.Perm faces) :
    ascending other = ascending faces :=
  ascending_eq_of_ordered (ascending_pairwise faces) (h.trans (ascending_perm faces).symm)

namespace Expression

theorem score_of_perm (e : Expression) {faces other : List Int} (h : other.Perm faces) :
    e.score other = e.score faces := by
  have successes (threshold : Int) : hits threshold other = hits threshold faces := h.countP_eq _
  unfold score Tally.ofHits
  simp only [ascending_eq_of_perm h, successes]

section Selecting

variable {σ : Type} [DiceSource σ] {count : Int}

/-- An expression with a selection takes as many faces as its count, keeps the best cut of them,
and makes the same of them in any order. Only a source with too few faces can keep it from its
end. -/
theorem roll_select (nonneg : 0 ≤ count) (die : Die) (rule : Selection) (amount : Int)
    (constant : Option Int) (text : String) (cap : Int) (tray : Tray σ) :
    let e : Expression := ⟨count, die, some (.select rule amount), constant⟩
    let played := (e.roll text cap).run tray
    (∀ (faces : List Int) (after : σ), faces.length = count →
      Gives tray.source (throwsOf die faces) after →
      ∃ cut : Selected, rule.Cut faces cut ∧
        played.ending = .finished ⟨cut.kept, cut.dropped, cut.kept.sum + constant.getD 0⟩ ∧
        played.tray = ⟨after, tray.drawn + faces.length⟩ ∧
        (0 ≤ amount → amount ≤ count → cut.kept.length = rule.keeps amount count) ∧
        (∀ chosen : List Int, chosen.Subperm faces → chosen.length = cut.kept.length →
          rule.Prefers cut.kept.sum chosen.sum) ∧
        ∀ (other : List Int) (tray' : Tray σ) (after' : σ), other.Perm faces →
          Gives tray'.source (throwsOf die other) after' →
          ((e.roll text cap).run tray').ending = played.ending) ∧
    ((∀ (faces : List Int) (after : σ), faces.length = count →
      ¬ Gives tray.source (throwsOf die faces) after) → played.ending = .exhausted) := by
  intro e played
  have plain : e.expansion? = none := rfl
  have whole (faces : List Int) : faces.length = count ↔ faces.length = e.count.toNat := by
    change _ ↔ faces.length = count.toNat
    omega
  constructor
  · intro faces after size given
    have cut := rule.cut_apply amount faces
    have run := run_of_plain plain text cap ((whole faces).mp size) given
    refine ⟨_, cut, run.1, run.2, ?_, fun chosen inside => cut.prefers_sum inside, ?_⟩
    · intro low high
      rw [← size, ← length_ascending faces] at high ⊢
      exact rule.length_kept low high
    · intro other tray' after' same given'
      have again := run_of_plain plain text cap
        (same.length_eq.trans ((whole faces).mp size)) given'
      rw [again.1, e.score_of_perm same]
      exact run.1.symm
  · intro few
    apply exhausted_of_plain plain text cap
    intro faces after size
    exact few faces after ((whole faces).mpr size)

theorem roll_select_three_of_four :
    let e : Expression := ⟨4, .numbered 6, some (.select .keepHighest 3), some 1⟩
    let tray := Script.tray [3, 6, 2, 4, 5]
    (0 : Int) ≤ 4 ∧ Gives tray.source (throwsOf e.die [3, 6, 2, 4]) ⟨[5]⟩ ∧
      ((e.roll "4d6kh3+1" 100).run tray).ending = .finished ⟨[3, 4, 6], [2], 14⟩ ∧
      ∃ cut : Selected, Selection.keepHighest.Cut [3, 6, 2, 4] cut ∧ cut.kept.length = 3 ∧
        ∀ chosen : List Int, chosen.Subperm [3, 6, 2, 4] → chosen.length = 3 →
          chosen.sum ≤ cut.kept.sum := by
  intro e tray
  have nonneg : (0 : Int) ≤ 4 := by decide
  have given : Gives tray.source (throwsOf e.die [3, 6, 2, 4]) ⟨[5]⟩ := gives_script_iff.mpr rfl
  have sorted : ascending [3, 6, 2, 4] = [2, 3, 4, 6] :=
    ascending_eq_of_ordered (by decide) (by decide)
  have score : e.score [3, 6, 2, 4] = ⟨[3, 4, 6], [2], 14⟩ := by
    rw [score, sorted]
    rfl
  have ended := (run_of_plain (e := e) rfl "4d6kh3+1" 100 rfl given).1
  rw [score] at ended
  refine ⟨nonneg, given, ended, ?_⟩
  obtain ⟨cut, parted, -, -, size, best, -⟩ := (roll_select nonneg (.numbered 6) .keepHighest 3
    (some 1) "4d6kh3+1" 100 tray).1 [3, 6, 2, 4] ⟨[5]⟩ rfl given
  have three : cut.kept.length = 3 := Int.ofNat_inj.mp (size (by decide) (by decide))
  refine ⟨cut, parted, three, ?_⟩
  intro chosen inside length
  exact best chosen inside (length.trans three.symm)

end Selecting

end Expression

end DiceRoller
