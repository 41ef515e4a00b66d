import DiceRoller.Text.Ranges

/-!
# Blank characters

The blank characters are the white space of Unicode and the four information separators.
Trimming takes them off both ends of a text.
-/

namespace DiceRoller.Text

def blankRanges : Ranges :=
  [(0x9, 0xD), (0x1C, 0x20), (0x85, 0x85), (0xA0, 0xA0), (0x1680, 0x1680), (0x2000, 0x200A),
   (0x2028, 0x2029), (0x202F, 0x202F), (0x205F, 0x205F), (0x3000, 0x3000)]

def isBlank (c : Char) : Bool := blankRanges.holds c

def trimStart (s : List Char) : List Char := s.dropWhile isBlank

def trimEnd (s : List Char) : List Char := (s.reverse.dropWhile isBlank).reverse

def trim (s : List Char) : List Char := trimEnd (trimStart s)

theorem trimStart_length_le (s : List Char) : (trimStart s).length ≤ s.length :=
  (List.dropWhile_sublist _).length_le

theorem trimStart_eq_self_iff {s : List Char} :
    trimStart s = s ↔ ∀ c ∈ s.head?, isBlank c = false := by
  cases s with
  | nil => simp [trimStart]
  | cons c s =>
    cases h : isBlank c
    · simp [trimStart, h]
    · have : (s.dropWhile isBlank).length ≤ s.length := (List.dropWhile_sublist _).length_le
      simp only [trimStart, List.dropWhile_cons, h, if_true, List.head?_cons, Option.mem_def,
        Option.some.injEq, forall_eq', Bool.true_eq_false, iff_false]
      intro e
      rw [e] at this
      simp only [List.length_cons] at this
      omega

theorem trimEnd_eq_self_iff {s : List Char} :
    trimEnd s = s ↔ ∀ c ∈ s.getLast?, isBlank c = false := by
  have := trimStart_eq_self_iff (s := s.reverse)
  rw [List.head?_reverse] at this
  rw [← this, trimEnd, trimStart]
  constructor
  · intro h
    have := congrArg List.reverse h
    simpa using this
  · intro h
    rw [h, List.reverse_reverse]

end DiceRoller.Text
