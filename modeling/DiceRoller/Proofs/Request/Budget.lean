import DiceRoller.Proofs.Expression.Aborting
import DiceRoller.Proofs.Pool.Budget
import DiceRoller.Request.Rolling
import DiceRoller.Source.Seeded
import Mathlib.Algebra.BigOperators.Ring.List

/-!
# The budget of a request

An expression that has been read draws no more dice than the larger of the two limits, and one
that is refused draws none. So a request draws no more than this for each of its expressions,
whatever its source (`roll_within_budget`).
-/

namespace DiceRoller

/-- The most dice that one expression may draw. -/
def Settings.most (settings : Settings) : Nat :=
  max settings.maxDice.toNat settings.maxRolledDice.toNat

namespace Request

variable (settings : Settings)

theorem asksAtMost_readAndRoll (text : String) :
    (Expression.readAndRoll settings text).AsksAtMost settings.most := by
  unfold Expression.readAndRoll
  split
  · rename_i e read
    have count := ((Expression.yields_read settings.maxDice text).of_eq_ok read).count_le
    apply Expression.asksAtMost_roll.mono (fun _ => id) (fun _ => id)
    unfold Settings.most
    omega
  · exact .reason trivial

theorem asksAtMost_noteFault (result : Result) : (noteFault result).AsksAtMost 0 := by
  unfold noteFault
  split
  · exact .value result
  · exact .note (.value result)

theorem asksAtMost_rollExpression (text : String) :
    (rollExpression settings text).AsksAtMost settings.most :=
  (asksAtMost_readAndRoll settings (Expression.canonical text)).settle.bind_still
    fun _ => asksAtMost_noteFault _

theorem asksAtMost_rollLine (line : Line) :
    (rollLine settings line).AsksAtMost (line.expressions.length * settings.most) := by
  have each : (line.expressions.mapM (rollExpression settings)).AsksAtMost
      (line.expressions.map fun _ => settings.most).sum :=
    .mapM fun e _ => asksAtMost_rollExpression settings e
  rw [List.map_const', List.sum_replicate, Nat.nsmul_eq_mul] at each
  exact each.bind_still fun results => .value _

theorem asksAtMost_roll (text : String) : (roll settings text).AsksAtMost
    (((lines text).flatMap Line.expressions).length * settings.most) := by
  have each : (rollLines settings (lines text)).AsksAtMost
      ((lines text).map fun line => line.expressions.length * settings.most).sum :=
    .mapM fun line _ => asksAtMost_rollLine settings line
  rw [List.sum_map_mul_right, ← List.length_flatMap] at each
  exact each.bind_still fun groups => .note (.value groups)

/-- Every expression comes to its end within a budget of dice, also one that no text denotes: a
pool that does not expand draws its count, and one that does no more than its cap. Reroll pools
that start below zero spend the cap and overflow. So a request draws no more than the larger of
the two limits for each of its expressions. -/
theorem roll_within_budget :
    (∀ {σ : Type} [DiceSource σ] (e : Expression) (text : String) (cap : Int) (tray : Tray σ),
      AlwaysGives σ e.die → cap.natAbs < Numeral.bound →
      let played := (e.roll text cap).run tray
      (e.expansion? = none → ∃ tally, played.ending = .finished tally ∧
        played.tray.drawn = tray.drawn + e.count.toNat) ∧
      (∀ threshold, e.expansion? = some threshold →
        ((∃ tally, played.ending = .finished tally) ∨
          ∃ detail, played.ending = .stopped (.fault ⟨.overflow, detail⟩)) ∧
        played.tray.drawn ≤ tray.drawn + cap.toNat) ∧
      (∀ threshold, e.modifier = some (.count .reroll threshold) → e.count < 0 →
        ∃ detail, played.ending = .stopped (.fault ⟨.overflow, detail⟩) ∧
          played.tray.drawn = tray.drawn + cap.toNat)) ∧
    ∀ {σ : Type} [DiceSource σ] (settings : Settings) (text : String) (tray : Tray σ),
      1 ≤ settings.maxDice → 1 ≤ settings.maxRolledDice →
      (((roll settings text).run tray).tray.drawn : Int) ≤ tray.drawn +
        ((lines text).flatMap Line.expressions).length *
          max settings.maxDice settings.maxRolledDice := by
  constructor
  · intro σ _ e text cap tray gives hcap played
    refine ⟨Expression.ends_of_plain gives tray, ?_, ?_⟩
    · intro threshold kind
      exact Expression.ends_of_expanding gives tray kind hcap
    · intro threshold kind neg
      exact Expression.overflows_of_neg gives tray kind neg hcap
  · intro σ _ settings text tray dice cap
    have most : (settings.most : Int) = max settings.maxDice settings.maxRolledDice := by
      unfold Settings.most
      omega
    rw [← most]
    exact_mod_cast (asksAtMost_roll settings text).drawn_le tray

theorem roll_within_budget_below_zero :
    let e : Expression := ⟨-2, .numbered 6, some (.count .reroll 7), none⟩
    let tray : Tray Seeded := ⟨.ofSeed 5, 0⟩
    let text := "2d6, 3dX\n2d6rv1"
    AlwaysGives Seeded e.die ∧ (4 : Int).natAbs < Numeral.bound ∧
      (∃ detail, ((e.roll "-2d6rv7" 4).run tray).ending = .stopped (.fault ⟨.overflow, detail⟩) ∧
        ((e.roll "-2d6rv7" 4).run tray).tray.drawn = 4) ∧
      (((roll {} text).run tray).tray.drawn : Int) ≤ 3000 := by
  intro e tray text
  have gives : AlwaysGives Seeded e.die := fun source => ⟨_, source.next, rfl⟩
  have hcap : (4 : Int).natAbs < Numeral.bound := by decide +kernel
  have three : ((lines text).flatMap Line.expressions).length = 3 := by decide +kernel
  have within := roll_within_budget.2 {} text tray (by decide) (by decide)
  rw [three] at within
  refine ⟨gives, hcap, ?_, within⟩
  exact (roll_within_budget.1 e "-2d6rv7" 4 tray gives hcap).2.2 7 rfl (by decide)

end Request

end DiceRoller
