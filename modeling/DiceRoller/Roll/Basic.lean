import DiceRoller.Expression.Basic
import DiceRoller.Journal.Event

/-!
# Rolls

A roll is a tree of decisions: it is over, or it asks for one more die and goes on with its
face, or it leaves an event in the journal. Nothing in it says where faces come from, so a
roll can use a face only after it asked for it.
-/

namespace DiceRoller

inductive Roll (ε α : Type) : Type
  | done (outcome : Except ε α)
  | draw (die : Die) (next : Int → Roll ε α)
  | note (event : Event) (next : Roll ε α)

namespace Roll

variable {ε α β : Type}

def bind (f : α → Roll ε β) : Roll ε α → Roll ε β
  | .done (.ok value) => f value
  | .done (.error reason) => .done (.error reason)
  | .draw die next => .draw die fun face => (next face).bind f
  | .note event next => .note event (next.bind f)

instance : Monad (Roll ε) where
  pure value := .done (.ok value)
  bind r f := r.bind f

theorem pure_eq (value : α) : (pure value : Roll ε α) = .done (.ok value) := rfl

theorem bind_eq (r : Roll ε α) (f : α → Roll ε β) : r >>= f = r.bind f := rfl

theorem bind_done (r : Roll ε α) : (r.bind fun value => .done (.ok value)) = r := by
  induction r with
  | done outcome => cases outcome <;> rfl
  | draw die next ih => exact congrArg (draw die) (funext ih)
  | note event next ih => exact congrArg (note event) ih

theorem bind_bind {γ : Type} (r : Roll ε α) (f : α → Roll ε β) (g : β → Roll ε γ) :
    (r.bind f).bind g = r.bind fun value => (f value).bind g := by
  induction r with
  | done outcome => cases outcome <;> rfl
  | draw die next ih => exact congrArg (draw die) (funext ih)
  | note event next ih => exact congrArg (note event) ih

instance : LawfulMonad (Roll ε) :=
  LawfulMonad.mk' _ (fun r => bind_done r) (fun _ _ => rfl) (fun r f g => bind_bind r f g)

def ofExcept (outcome : Except ε α) : Roll ε α := .done outcome

def fail (reason : ε) : Roll ε α := .done (.error reason)

def noting (event : Event) : Roll ε Unit := .note event (.done (.ok ()))

/-- Goes on after a fault with the fault as value. An abort still ends the roll. -/
def settle : Roll Failure α → Roll Abort (Except Fault α)
  | .done (.ok value) => .done (.ok (.ok value))
  | .done (.error (.fault fault)) => .done (.ok (.error fault))
  | .done (.error (.abort reason)) => .done (.error reason)
  | .draw die next => .draw die fun face => (next face).settle
  | .note event next => .note event next.settle

/-- The faces of `count` dice, in the order drawn, after those in `drawn`. -/
def dice (die : Die) : (count : Nat) → (drawn : List Int) → Roll ε (List Int)
  | 0, drawn => .done (.ok drawn.reverse)
  | count + 1, drawn => .draw die fun face => dice die count (face :: drawn)

end Roll

end DiceRoller
