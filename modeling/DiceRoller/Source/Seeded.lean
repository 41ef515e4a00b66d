import DiceRoller.Roll.Run

/-!
# Seeded sources

A linear congruential generator on 64 bits, of which the upper 31 choose the face. Equal
seeds give equal faces, and the source is never exhausted.
-/

namespace DiceRoller

structure Seeded where
  state : UInt64
  deriving DecidableEq, Repr

namespace Seeded

def ofSeed (seed : Int) : Seeded := ⟨UInt64.ofInt seed⟩

def next (source : Seeded) : Seeded :=
  ⟨source.state * 6364136223846793005 + 1442695040888963407⟩

def number (source : Seeded) : Nat := (source.state >>> 33).toNat

def face (source : Seeded) : Die → Int
  | .numbered sides => 1 + (source.number : Int) % sides
  | .fate => (source.number : Int) % 3 - 1

instance : DiceSource Seeded where
  draw die source := some (source.next.face die, source.next)

end Seeded

end DiceRoller
