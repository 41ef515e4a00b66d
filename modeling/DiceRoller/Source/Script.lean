import DiceRoller.Roll.Run

/-!
# Scripted sources

A list of faces to give in order, whatever die is asked for.
-/

namespace DiceRoller

structure Script where
  faces : List Int
  deriving DecidableEq, Repr

instance : DiceSource Script where
  draw _ script :=
    match script.faces with
    | [] => none
    | face :: rest => some (face, ⟨rest⟩)

end DiceRoller
