import DiceRoller.Roll.Run
import Mathlib.Algebra.GroupWithZero.Nat

/-!
# How many dice a roll asks for

A bound on the dice that a roll asks for is a bound on what it draws from any source, also from
one that is exhausted on the way (`Asks.drawn_le`). A source that always answers for these dice
takes the roll to its end (`Asks.run`).
-/

namespace DiceRoller

variable {σ ε α β : Type}

/-- The source gives a face of the die whenever it is asked. -/
def AlwaysGives (σ : Type) [DiceSource σ] (die : Die) : Prop :=
  ∀ source : σ, ∃ face after, DiceSource.draw die source = some (face, after)

namespace Roll

/-- However the dice fall, the roll asks for so many of them at most and for no others than those
in `ask`, and it stops for no reasons other than those in `bad`. -/
inductive Asks (ask : Die → Prop) (bad : ε → Prop) : Nat → Roll ε α → Prop
  | value {most : Nat} (value : α) : Asks ask bad most (.done (.ok value))
  | reason {most : Nat} {reason : ε} (h : bad reason) : Asks ask bad most (.done (.error reason))
  | draw {most : Nat} {die : Die} {next : Int → Roll ε α} (asked : ask die)
      (later : ∀ face, Asks ask bad most (next face)) : Asks ask bad (most + 1) (.draw die next)
  | note {most : Nat} {event : Event} {next : Roll ε α} (later : Asks ask bad most next) :
      Asks ask bad most (.note event next)

/-- The roll asks for so many dice at most, whichever they are. -/
abbrev AsksAtMost (most : Nat) (r : Roll ε α) : Prop :=
  r.Asks (fun _ => True) (fun _ => True) most

namespace Asks

variable {ask ask' : Die → Prop} {bad bad' : ε → Prop} {most more : Nat} {r : Roll ε α}

theorem mono (h : r.Asks ask bad most) (hask : ∀ die, ask die → ask' die)
    (hbad : ∀ reason, bad reason → bad' reason) (le : most ≤ more) : r.Asks ask' bad' more := by
  induction h generalizing more with
  | value value => exact .value value
  | reason h => exact .reason (hbad _ h)
  | draw asked _ ih =>
    obtain ⟨rest, rfl⟩ := Nat.exists_eq_add_of_le' (Nat.one_le_of_lt (Nat.lt_of_succ_le le))
    exact .draw (hask _ asked) fun face => ih face (Nat.le_of_succ_le_succ le)
  | note _ ih => exact .note (ih le)

theorem bind {f : α → Roll ε β} (h : r.Asks ask bad most)
    (later : ∀ value, (f value).Asks ask bad more) : (r >>= f).Asks ask bad (most + more) := by
  rw [bind_eq]
  induction h with
  | value value => exact (later value).mono (fun _ => id) (fun _ => id) (Nat.le_add_left _ _)
  | reason h => exact .reason h
  | @draw most die next asked _ ih =>
    rw [Nat.add_right_comm]
    exact .draw asked ih
  | note _ ih => exact .note ih

/-- What follows without a die adds nothing to the bound. -/
theorem bind_still {f : α → Roll ε β} (h : r.Asks ask bad most)
    (later : ∀ value, (f value).Asks ask bad 0) : (r >>= f).Asks ask bad most := by
  have whole := h.bind later
  rwa [Nat.add_zero] at whole

theorem mapM {f : α → Roll ε β} {most : α → Nat} {l : List α}
    (h : ∀ a ∈ l, (f a).Asks ask bad (most a)) : (l.mapM f).Asks ask bad (l.map most).sum := by
  induction l with
  | nil => exact .value []
  | cons a l ih =>
    rw [List.mapM_cons, List.map_cons, List.sum_cons]
    apply (h a List.mem_cons_self).bind
    intro b
    exact (ih fun x hx => h x (List.mem_cons_of_mem a hx)).bind_still fun bs => .value (b :: bs)

theorem settle {bad : Failure → Prop} {r : Roll Failure α} (h : r.Asks ask bad most) :
    r.settle.Asks ask (fun reason => bad (.abort reason)) most := by
  induction h with
  | value value => exact .value _
  | @reason most reason h =>
    cases reason with
    | fault fault => exact .value _
    | abort reason => exact .reason h
  | draw asked _ ih => exact .draw asked ih
  | note _ ih => exact .note ih

variable [DiceSource σ] (tray : Tray σ)

theorem drawn_le (h : r.Asks ask bad most) : (r.run tray).tray.drawn ≤ tray.drawn + most := by
  induction h generalizing tray with
  | value value => exact Nat.le_add_right _ _
  | reason h => exact Nat.le_add_right _ _
  | @draw most die next asked _ ih =>
    unfold Roll.run
    cases DiceSource.draw die tray.source with
    | none => exact Nat.le_add_right _ _
    | some given =>
      have later := ih given.1 ⟨given.2, tray.drawn + 1⟩
      rwa [Nat.add_assoc, Nat.add_comm 1] at later
  | note _ ih => exact ih tray

theorem run (h : r.Asks ask bad most) (gives : ∀ die, ask die → AlwaysGives σ die) :
    (∃ value, (r.run tray).ending = .finished value) ∨
      ∃ reason, bad reason ∧ (r.run tray).ending = .stopped reason := by
  induction h generalizing tray with
  | value value => exact Or.inl ⟨value, rfl⟩
  | reason h => exact Or.inr ⟨_, h, rfl⟩
  | @draw most die next asked _ ih =>
    obtain ⟨face, after, given⟩ := gives die asked tray.source
    simp only [Roll.run, given]
    exact ih face ⟨after, tray.drawn + 1⟩
  | note _ ih => exact ih tray

end Asks

end Roll

end DiceRoller
