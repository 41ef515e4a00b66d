import DiceRoller.Expression.Reading
import DiceRoller.Proofs.Numeral
import Mathlib.Tactic.SplitIfs

/-!
# Expressions within their bounds

The check for breaches is silent exactly on the expressions within the bounds. What it finds
in any other expression is reported as a fault, provided that the numbers it quotes can be
written.
-/

namespace DiceRoller.Expression

/-- What the check for breaches asks of an expression of at most `most` dice. -/
structure WithinBounds (most : Int) (e : Expression) : Prop where
  count_pos : 1 ≤ e.count
  count_le : e.count ≤ most
  two_le_sides : ∀ sides, e.die = .numbered sides → 2 ≤ sides
  amount_mem : ∀ rule amount, e.modifier = some (.select rule amount) →
    1 ≤ amount ∧ amount ≤ e.count

/-- The numbers of the expression that a fault may quote can be written. -/
structure Writable (e : Expression) : Prop where
  count : e.count.natAbs < Numeral.bound
  amount : ∀ rule amount, e.modifier = some (.select rule amount) →
    amount.natAbs < Numeral.bound

theorem tooFewSides_eq_false_iff {die : Die} :
    die.tooFewSides = false ↔ ∀ sides, die = .numbered sides → 2 ≤ sides := by
  cases die with
  | numbered n =>
    simp only [Die.tooFewSides, decide_eq_false_iff_not, Die.numbered.injEq, forall_eq']
    omega
  | fate => simp [Die.tooFewSides]

theorem breach?_eq_none_iff {most : Int} {e : Expression} :
    e.breach? most = none ↔ e.WithinBounds most := by
  obtain ⟨count, die, modifier, constant⟩ := e
  unfold breach?
  constructor
  · intro h
    split_ifs at h with low high sides
    have sides := tooFewSides_eq_false_iff.mp (Bool.eq_false_iff.mpr sides)
    refine ⟨by omega, by omega, sides, ?_⟩
    rintro rule amount rfl
    dsimp only at h
    split_ifs at h with less more
    exact ⟨by omega, Int.not_lt.mp more⟩
  · rintro ⟨low, high, sides, amount⟩
    have sides := tooFewSides_eq_false_iff.mpr sides
    rw [if_neg (by omega), if_neg (by omega), if_neg (by rw [sides]; exact Bool.false_ne_true)]
    match modifier with
    | none => rfl
    | some (.count _ _) => rfl
    | some (.select rule z) =>
      have inside := amount rule z rfl
      dsimp only at inside ⊢
      rw [if_neg (by omega), if_neg (by omega)]

def Breach.Writable : Breach → Prop
  | .tooManyDice count most => count.natAbs < Numeral.bound ∧ most.natAbs < Numeral.bound
  | .amountAboveCount amount count =>
    amount.natAbs < Numeral.bound ∧ count.natAbs < Numeral.bound
  | _ => True

theorem Breach.failure_eq_fault (text : String) {breach : Breach} (h : breach.Writable) :
    ∃ detail, breach.failure text = .fault ⟨.outOfRange, detail⟩ := by
  cases breach with
  | tooManyDice count most =>
    simp only [failure, detail, Numeral.write_of_lt h.1, Numeral.write_of_lt h.2]
    exact ⟨_, rfl⟩
  | amountAboveCount amount count =>
    simp only [failure, detail, Numeral.write_of_lt h.1, Numeral.write_of_lt h.2]
    exact ⟨_, rfl⟩
  | noDie => exact ⟨_, rfl⟩
  | tooFewSides => exact ⟨_, rfl⟩
  | amountTooSmall => exact ⟨_, rfl⟩

theorem writable_of_breach? {most : Int} {e : Expression} {breach : Breach}
    (h : e.breach? most = some breach) (hmost : most < e.count → most.natAbs < Numeral.bound)
    (writable : e.Writable) : breach.Writable := by
  unfold breach? at h
  split_ifs at h with low high
  · exact Option.some.inj h ▸ trivial
  · exact Option.some.inj h ▸ ⟨writable.count, hmost high⟩
  · exact Option.some.inj h ▸ trivial
  · split at h
    · rename_i rule amount hm
      split_ifs at h
      · exact Option.some.inj h ▸ trivial
      · exact Option.some.inj h ▸ ⟨writable.amount rule amount hm, writable.count⟩
    · simp at h

theorem bounded_of_withinBounds (text : String) {most : Int} {e : Expression}
    (h : e.WithinBounds most) : e.bounded most text = .ok e := by
  rw [bounded, breach?_eq_none_iff.mpr h]

theorem bounded_of_not_withinBounds (text : String) {most : Int} {e : Expression}
    (h : ¬ e.WithinBounds most) (hmost : most < e.count → most.natAbs < Numeral.bound)
    (writable : e.Writable) :
    ∃ detail, e.bounded most text = .error (.fault ⟨.outOfRange, detail⟩) := by
  cases found : e.breach? most with
  | none => exact absurd (breach?_eq_none_iff.mp found) h
  | some breach =>
    obtain ⟨detail, fault⟩ := breach.failure_eq_fault text
      (writable_of_breach? found hmost writable)
    exact ⟨detail, by rw [bounded, found]; exact congrArg Except.error fault⟩

end DiceRoller.Expression
