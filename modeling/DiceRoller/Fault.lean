/-!
# Faults and aborts

A fault is a mistake in one dice expression. It is reported in place of that expression's
result and leaves the others alone. An abort ends the whole request.
-/

namespace DiceRoller

inductive Fault.Kind
  | general
  | malformed
  | outOfRange
  | overflow
  deriving DecidableEq, Repr

/-- A stable word for programs that read the message. -/
def Fault.Kind.code : Fault.Kind → String
  | .general => "DICE_ERROR"
  | .malformed => "SYNTAX_ERROR"
  | .outOfRange => "RANGE_ERROR"
  | .overflow => "EXPLOSION_OVERFLOW"

structure Fault where
  kind : Fault.Kind
  detail : String
  deriving DecidableEq, Repr

def Fault.message (fault : Fault) : String :=
  "[" ++ fault.kind.code ++ "] " ++ fault.detail

inductive Abort
  /-- A numeral of this many digits was to be read. -/
  | longNumeral (digits : Nat)
  /-- An integer was to be written that has too many digits. -/
  | longInteger
  /-- The request holds nothing but blanks. -/
  | emptyRequest
  deriving DecidableEq, Repr

inductive Failure
  | fault (fault : Fault)
  | abort (abort : Abort)
  deriving DecidableEq, Repr

end DiceRoller
