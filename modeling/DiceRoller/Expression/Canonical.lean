import DiceRoller.Text.Blank
import DiceRoller.Text.Lowercase

/-!
# Canonical texts

An expression is read, and echoed, without the blanks around it and in lower case.
-/

namespace DiceRoller.Expression

def canonicalChars (s : List Char) : List Char := Text.lower (Text.trim s)

def canonical (text : String) : String := String.ofList (canonicalChars text.toList)

end DiceRoller.Expression
