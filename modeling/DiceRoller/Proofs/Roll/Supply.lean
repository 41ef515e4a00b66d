import DiceRoller.Source.Seeded
import Mathlib.Data.List.Range

/-!
# Supplies of faces

A supply is a source that never refuses a die, seen as the stream of faces that it gives for
it. A roll that asks for this die alone runs along the stream, one state of the source after
the other.
-/

namespace DiceRoller

structure Supply (σ : Type) [DiceSource σ] (die : Die) where
  face : Nat → Int
  state : Nat → σ
  draw_eq : ∀ i, DiceSource.draw die (state i) = some (face i, state (i + 1))

namespace Supply

variable {σ : Type} [DiceSource σ] {die : Die}

/-- The states that follow each other where a source answers every time. -/
def stateFrom (answers : ∀ source : σ, (DiceSource.draw die source).isSome) (source : σ) : Nat → σ
  | 0 => source
  | i + 1 =>
    let last := stateFrom answers source i
    ((DiceSource.draw die last).get (answers last)).2

/-- Any state of a source that always answers starts a supply. -/
def ofAnswering (answers : ∀ source : σ, (DiceSource.draw die source).isSome) (source : σ) :
    Supply σ die where
  face i :=
    let last := stateFrom answers source i
    ((DiceSource.draw die last).get (answers last)).1
  state := stateFrom answers source
  draw_eq i := (Option.some_get (answers (stateFrom answers source i))).symm

variable (supply : Supply σ die)

/-- The first faces of the stream. -/
def faces (count : Nat) : List Int := (List.range count).map supply.face

theorem faces_zero : supply.faces 0 = [] := rfl

theorem faces_succ (count : Nat) :
    supply.faces (count + 1) = supply.faces count ++ [supply.face count] := by
  simp [faces, List.range_succ]

/-- What is left after `count` draws when `before` faces had been drawn already. -/
def tray (before count : Nat) : Tray σ := ⟨supply.state count, before + count⟩

theorem run_draw {ε α : Type} (next : Int → Roll ε α) (before count : Nat) :
    (Roll.draw die next).run (supply.tray before count) =
      (next (supply.face count)).run (supply.tray before (count + 1)) := by
  simp only [Roll.run, tray, supply.draw_eq, Nat.add_assoc]

end Supply

/-- A seeded source is never exhausted. -/
def Seeded.supply (source : Seeded) (die : Die) : Supply Seeded die :=
  .ofAnswering (fun _ => rfl) source

end DiceRoller
