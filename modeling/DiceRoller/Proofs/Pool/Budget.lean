import DiceRoller.Proofs.Pool.Courses
import DiceRoller.Proofs.Pool.Expanding
import DiceRoller.Proofs.Roll.Budget

/-!
# Budgets of pools

Every pool comes to its end within its budget of dice, whatever its count and its threshold. A
rerolling pool that starts below zero moves away from zero with each miss, so that it spends
its budget like so many plain dice and has no result (`reroll_of_neg`).
-/

namespace DiceRoller

variable {σ ε : Type} {die : Die}

section Pools

variable {bad : ε → Prop} (threshold : Int)

theorem asks_dice (count : Nat) (drawn : List Int) :
    (Roll.dice die count drawn).Asks (· = die) bad count := by
  induction count generalizing drawn with
  | zero => exact .value _
  | succ count ih => exact .draw rfl fun face => ih (face :: drawn)

theorem asks_explode (budget pending : Nat) (chain : List Int) (closed : List (List Int)) :
    (explode die threshold budget pending chain closed).Asks (· = die) bad budget := by
  fun_induction explode (ε := ε) die threshold budget pending chain closed with
  | case1 => exact .value _
  | case2 => exact .value _
  | case3 budget pending chain closed more fewer =>
    refine .draw rfl fun face => ?_
    split
    · exact more face
    · exact fewer face

theorem asks_reroll (budget : Nat) (pending : Int) (drawn : List Int) :
    (reroll die threshold budget pending drawn).Asks (· = die) bad budget := by
  induction budget generalizing pending drawn with
  | zero => exact .value _
  | succ budget ih =>
    unfold reroll
    split
    · exact .value _
    · exact .draw rfl fun face => ih _ (face :: drawn)

/-- Below zero no face brings the number of pending dice to zero. -/
theorem reroll_of_neg (budget : Nat) {pending : Int} (neg : pending < 0) (drawn : List Int) :
    reroll (ε := ε) die threshold budget pending drawn =
      (Roll.dice die budget drawn).bind fun _ => .done (.ok none) := by
  induction budget generalizing pending drawn with
  | zero => rw [reroll, if_neg (by omega), Roll.dice, Roll.bind]
  | succ budget ih =>
    rw [reroll, if_neg (by omega), Roll.dice, Roll.bind]
    congr 1
    funext face
    exact ih (by split <;> omega) (face :: drawn)

end Pools

/-- A source that always gives the die gives as many faces of it as there are to be drawn. -/
theorem AlwaysGives.run_dice [DiceSource σ] (gives : AlwaysGives σ die) (count : Nat)
    (drawn : List Int) (tray : Tray σ) :
    ∃ faces after, (Roll.dice (ε := ε) die count drawn).run tray =
      ⟨.finished faces, ⟨after, tray.drawn + count⟩, []⟩ := by
  induction count generalizing drawn tray with
  | zero => exact ⟨_, tray.source, rfl⟩
  | succ count ih =>
    obtain ⟨face, between, given⟩ := gives tray.source
    obtain ⟨faces, after, run⟩ := ih (face :: drawn) ⟨between, tray.drawn + 1⟩
    refine ⟨faces, after, ?_⟩
    simp only [Roll.dice, Roll.run, given, run]
    rw [Nat.add_assoc, Nat.add_comm 1]

namespace Expression

variable {e : Expression} {text : String} {cap : Int}

theorem asks_expanding {α : Type} {pool : Roll Failure (Option α)} (tally : α → Tally)
    (h : pool.Asks (· = e.die) (· = .overflow text cap) cap.toNat) :
    (e.expanding text cap tally pool).Asks (· = e.die) (· = .overflow text cap) cap.toNat := by
  unfold expanding
  split
  · exact .reason rfl
  · apply h.bind_still
    rintro (_ | rolled)
    · exact .reason rfl
    · exact .value _

theorem asks_roll_of_plain (plain : e.expansion? = none) :
    (e.roll text cap).Asks (· = e.die) (fun _ => False) e.count.toNat := by
  rw [roll_of_plain plain]
  exact (asks_dice e.count.toNat []).bind_still fun faces => .value _

theorem asks_roll_of_expanding {threshold : Int} (kind : e.expansion? = some threshold) :
    (e.roll text cap).Asks (· = e.die) (· = .overflow text cap) cap.toNat := by
  match hm : e.modifier with
  | some (.count .exploding threshold) =>
    simp only [roll, hm]
    exact asks_expanding _ (asks_explode threshold cap.toNat e.count.toNat [] [])
  | some (.count .reroll threshold) =>
    simp only [roll, hm]
    exact asks_expanding _ (asks_reroll threshold cap.toNat e.count [])
  | none | some (.select _ _) | some (.count .versus _) => simp [expansion?, hm] at kind

theorem asksAtMost_roll : (e.roll text cap).AsksAtMost (max e.count.toNat cap.toNat) := by
  cases kind : e.expansion? with
  | none =>
    exact (asks_roll_of_plain kind).mono (fun _ _ => trivial) (fun _ _ => trivial)
      (Nat.le_max_left _ _)
  | some threshold =>
    exact (asks_roll_of_expanding kind).mono (fun _ _ => trivial) (fun _ _ => trivial)
      (Nat.le_max_right _ _)

section Ending

variable [DiceSource σ] (gives : AlwaysGives σ e.die) (tray : Tray σ)

include gives

theorem ends_of_plain (plain : e.expansion? = none) :
    ∃ tally, ((e.roll text cap).run tray).ending = .finished tally ∧
      ((e.roll text cap).run tray).tray.drawn = tray.drawn + e.count.toNat := by
  obtain ⟨faces, after, run⟩ := gives.run_dice (ε := Failure) e.count.toNat [] tray
  rw [roll_of_plain plain, Roll.bind_eq, Roll.run_bind, run]
  exact ⟨_, rfl, rfl⟩

theorem ends_of_expanding {threshold : Int} (kind : e.expansion? = some threshold)
    (hcap : cap.natAbs < Numeral.bound) :
    ((∃ tally, ((e.roll text cap).run tray).ending = .finished tally) ∨
      ∃ detail, ((e.roll text cap).run tray).ending = .stopped (.fault ⟨.overflow, detail⟩)) ∧
    ((e.roll text cap).run tray).tray.drawn ≤ tray.drawn + cap.toNat := by
  have asks : (e.roll text cap).Asks _ _ _ := asks_roll_of_expanding kind
  obtain ⟨detail, overflow⟩ := Failure.overflow_eq_fault text hcap
  refine ⟨?_, asks.drawn_le tray⟩
  rcases asks.run tray (fun die asked => asked ▸ gives) with finished | ⟨reason, same, stopped⟩
  · exact Or.inl finished
  · rw [same, overflow] at stopped
    exact Or.inr ⟨detail, stopped⟩

/-- A rerolling expression of less than no dice overflows, and only after its whole budget. -/
theorem overflows_of_neg {threshold : Int} (kind : e.modifier = some (.count .reroll threshold))
    (neg : e.count < 0) (hcap : cap.natAbs < Numeral.bound) :
    ∃ detail, ((e.roll text cap).run tray).ending = .stopped (.fault ⟨.overflow, detail⟩) ∧
      ((e.roll text cap).run tray).tray.drawn = tray.drawn + cap.toNat := by
  obtain ⟨detail, overflow⟩ := Failure.overflow_eq_fault text hcap
  refine ⟨detail, ?_⟩
  simp only [roll, kind, expanding]
  by_cases above : cap < e.count
  · have none : cap.toNat = 0 := by omega
    rw [if_pos above, overflow, none]
    exact ⟨rfl, rfl⟩
  · obtain ⟨faces, after, run⟩ := gives.run_dice (ε := Failure) cap.toNat [] tray
    rw [if_neg above, reroll_of_neg threshold _ neg, Roll.bind_bind, Roll.run_bind, run, overflow]
    exact ⟨rfl, rfl⟩

end Ending

end Expression

end DiceRoller
