import DiceRoller.Expression.Bounds
import DiceRoller.Expression.Canonical
import DiceRoller.Expression.Draft

/-!
# Reading an expression

A text is made canonical, cut into a draft, turned into an expression part by part from left
to right, and held against the bounds. The first thing that goes wrong on that way is the
one reported; two modifiers of different kinds are found out only after the last of them.
-/

namespace DiceRoller.Expression

/-- The modifiers met so far, at most one of each kind. -/
structure Gathered where
  selection : Option (Selection × Int) := none
  counting : Option (Counting × Int) := none
  deriving DecidableEq, Repr

def refuse (text : String) (flaw : Flaw) : Failure := .fault (flaw.fault text)

def readNumeral (digits : List Char) : Except Failure Nat :=
  (Numeral.read digits).mapError .abort

def Gathered.add (text : String) (met : Gathered) (clause : Clause) :
    Except Failure Gathered := do
  let n ← readNumeral clause.digits
  match clause.keyword with
  | .select rule =>
    if met.selection.isSome then throw (refuse text .secondSelection)
    return { met with selection := some (rule, n) }
  | .count rule =>
    if met.counting.isSome then throw (refuse text .secondCounting)
    return { met with counting := some (rule, n) }

def Gathered.modifier (text : String) : Gathered → Except Failure (Option Modifier)
  | ⟨some _, some _⟩ => .error (refuse text .mixedModifiers)
  | ⟨some (rule, n), none⟩ => .ok (some (.select rule n))
  | ⟨none, some (rule, n)⟩ => .ok (some (.count rule n))
  | ⟨none, none⟩ => .ok none

def readModifier (text : String) (clauses : List Clause) : Except Failure (Option Modifier) := do
  let met ← clauses.foldlM (Gathered.add text) {}
  met.modifier text

/-- A constant is a sign and digits, with nothing after them. -/
def readConstant (text : String) : List Char → Except Failure (Option Int)
  | [] => .ok none
  | sign :: digits =>
    if (sign = '+' ∨ sign = '-') ∧ digits ≠ [] ∧ digits.all Char.isDigit then do
      let n ← readNumeral digits
      return some (if sign = '-' then -n else n)
    else .error (refuse text (.unexpected (sign :: digits)))

def Draft.read (text : String) (draft : Draft) : Except Failure Expression := do
  let count ← if draft.count.isEmpty then pure 1 else readNumeral draft.count
  let die ← match draft.sides with
    | some digits => do
      let sides ← readNumeral digits
      pure (Die.numbered sides)
    | none => pure Die.fate
  let modifier ← readModifier text draft.clauses
  let constant ← readConstant text draft.tail
  return ⟨count, die, modifier, constant⟩

def bounded (most : Int) (text : String) (e : Expression) : Except Failure Expression :=
  match e.breach? most with
  | some breach => .error (breach.failure text)
  | none => .ok e

def readCanonical (most : Int) (text : String) : Except Failure Expression :=
  if text.isEmpty then .error (refuse text .empty)
  else match Draft.scan text.toList with
    | none => .error (refuse text .noDice)
    | some draft => do
      let e ← draft.read text
      e.bounded most text

/-- Reads an expression of at most `most` dice. -/
def read (most : Int) (text : String) : Except Failure Expression :=
  readCanonical most (canonical text)

end DiceRoller.Expression
