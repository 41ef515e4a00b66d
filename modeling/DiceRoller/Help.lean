/-!
# Help

The text that explains requests to a player.
-/

namespace DiceRoller

def helpLines : List String := [
  "Input Format",
  "",
  "One roll per line. Labels are optional. Multiple dice expressions on one",
  "line are separated by commas.",
  "",
  "  2d6",
  "  2d6, 1d8",
  "  Attack: 1d20+5",
  "  Attack: 1d20+5, 1d6",
  "  Attack (Hard): 1d8, 1d10",
  "",
  "Basic Notation",
  "",
  "  NdX      Roll N dice with X sides",
  "  NdX+C    Add constant C to the total",
  "  NdX-C    Subtract constant C",
  "",
  "Keep and Drop",
  "",
  "  NdXkZ    Keep Z highest (also: khZ)",
  "  NdXklZ   Keep Z lowest",
  "  NdXdZ    Drop Z lowest (also: dlZ)",
  "  NdXdhZ   Drop Z highest",
  "",
  "  4d6kh3   Roll 4d6, keep 3 highest",
  "  2d20kh1  Advantage (keep highest)",
  "  2d20kl1  Disadvantage (keep lowest)",
  "",
  "  (n) = dropped die in results",
  "",
  "Success Counting (Versus)",
  "",
  "  NdXvT    Count dice rolling T or higher",
  "  NdXevT   Exploding: a match rerolls and adds to that die's total",
  "  NdXrvT   Reroll: a match adds an extra die to the roll",
  "",
  "  6d10v8   Roll 6d10, count successes >= 8",
  "",
  "Fudge / Fate Dice",
  "",
  "  NdF      Roll N Fate/Fudge dice (-1, 0, +1)",
  "  4dF      Standard Fate roll",
  "  4dF+2    Fate roll with +2 bonus"
]

def helpText : String := "\n".intercalate helpLines

end DiceRoller
