import DiceRoller.Request.Label

/-!
# Lines of a request

A request is read line by line, and a line is an optional label and expressions between
commas. Blank expressions are left out, and so are lines that keep no expression.
-/

namespace DiceRoller.Request

structure Line where
  label : Option String
  expressions : List String
  deriving DecidableEq, Repr

def splitExpressionChars (s : List Char) : List (List Char) :=
  ((s.splitOn ',').map Text.trim).filter (!·.isEmpty)

def splitExpressions (text : String) : List String :=
  (splitExpressionChars text.toList).map String.ofList

/-- A line without the blanks around it, read as label and expressions. -/
def Line.ofChars (s : List Char) : Line :=
  let split := splitLabelChars s
  ⟨split.1.map String.ofList, (splitExpressionChars split.2).map String.ofList⟩

def linesOfChars (s : List Char) : List Line :=
  (((s.splitOn '\n').map Text.trim).filter (!·.isEmpty)).map Line.ofChars |>.filter
    (!·.expressions.isEmpty)

def lines (text : String) : List Line := linesOfChars text.toList

end DiceRoller.Request
