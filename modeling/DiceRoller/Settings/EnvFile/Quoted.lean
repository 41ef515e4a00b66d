/-!
# Quoted values in environment files

A quoted value ends at the first quote that no backslash escapes. A backslash always takes
the next character with it. Between single quotes it escapes quotes and backslashes, between
double quotes also the letters for control characters; before any other character it stands
for itself.
-/

namespace DiceRoller.EnvFile

def singleEscape (c : Char) : Option Char :=
  if c = '\\' ∨ c = '\x27' then some c else none

def doubleEscape (c : Char) : Option Char :=
  match c with
  | '\\' | '\x27' | '"' => some c
  | 'a' => some '\x07'
  | 'b' => some '\x08'
  | 'f' => some '\x0c'
  | 'n' => some '\n'
  | 'r' => some '\r'
  | 't' => some '\t'
  | 'v' => some '\x0b'
  | _ => none

/-- What a backslash and the character after it stand for. -/
def unescape (meaning : Char → Option Char) (c : Char) : List Char :=
  match meaning c with
  | some d => [d]
  | none => ['\\', c]

/-- The value whose opening quote has just been read, and what follows its closing one. -/
def quoted? (quote : Char) (meaning : Char → Option Char) :
    List Char → Option (List Char × List Char)
  | [] => none
  | '\\' :: c :: s =>
    (quoted? quote meaning s).map fun cut => (unescape meaning c ++ cut.1, cut.2)
  | c :: s =>
    if c = quote then some ([], s)
    else (quoted? quote meaning s).map fun cut => (c :: cut.1, cut.2)

theorem quoted?_length_lt {quote : Char} {meaning : Char → Option Char} {s : List Char}
    {cut : List Char × List Char} (h : quoted? quote meaning s = some cut) :
    cut.2.length < s.length := by
  fun_induction quoted? quote meaning s generalizing cut with
  | case1 => simp at h
  | case2 c s ih =>
    obtain ⟨inner, hi, rfl⟩ := Option.map_eq_some_iff.mp h
    have shorter := ih hi
    simp only [List.length_cons]
    omega
  | case3 s _ =>
    simp only [Option.some.injEq] at h
    simp [← h]
  | case4 c s _ _ ih =>
    obtain ⟨inner, hi, rfl⟩ := Option.map_eq_some_iff.mp h
    have shorter := ih hi
    simp only [List.length_cons]
    omega

end DiceRoller.EnvFile
