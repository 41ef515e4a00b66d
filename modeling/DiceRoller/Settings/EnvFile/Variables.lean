import DiceRoller.Settings.EnvFile.Binding
import DiceRoller.Settings.Readers

/-!
# Variables in environment files

A value may name variables in braces after a dollar sign, with a default after a colon and a
dash. A variable means what the file assigned to it before, else what the environment holds,
else its default, else nothing.
-/

namespace DiceRoller.EnvFile

structure Reference where
  name : List Char
  fallback : List Char
  deriving DecidableEq, Repr

/-- The variable whose opening brace has just been read, and what follows it. -/
def reference? (s : List Char) : Option (Reference × List Char) :=
  let name := s.takeWhile fun c => c != '\x7d' && c != ':'
  match s.dropWhile fun c => c != '\x7d' && c != ':' with
  | '\x7d' :: rest => some (⟨name, []⟩, rest)
  | ':' :: '-' :: t =>
    match t.dropWhile (· != '\x7d') with
    | _ :: rest => some (⟨name, t.takeWhile (· != '\x7d')⟩, rest)
    | [] => none
  | _ => none

theorem length_lt_of_reference? {s rest : List Char} {v : Reference}
    (h : reference? s = some (v, rest)) : rest.length < s.length := by
  have drop_le (p : Char → Bool) (t : List Char) : (t.dropWhile p).length ≤ t.length :=
    (List.dropWhile_sublist p).length_le
  have outer := drop_le (fun c => c != '\x7d' && c != ':') s
  unfold reference? at h
  simp only at h
  split at h
  · rename_i heq
    rw [heq] at outer
    simp only [Option.some.injEq, Prod.mk.injEq] at h
    obtain ⟨-, rfl⟩ := h
    simp only [List.length_cons] at outer
    omega
  · rename_i t heq
    rw [heq] at outer
    have inner := drop_le (· != '\x7d') t
    split at h
    · rename_i heq'
      rw [heq'] at inner
      simp only [Option.some.injEq, Prod.mk.injEq] at h
      obtain ⟨-, rfl⟩ := h
      simp only [List.length_cons] at outer inner
      omega
    · simp at h
  · simp at h

def expand (meaning : Reference → List Char) (s : List Char) : List Char :=
  match s with
  | [] => []
  | '$' :: '\x7b' :: t =>
    match _h : reference? t with
    | some (v, rest) => meaning v ++ expand meaning rest
    | none => '$' :: expand meaning ('\x7b' :: t)
  | c :: t => c :: expand meaning t
termination_by s.length
decreasing_by
  · have := length_lt_of_reference? _h
    simp only [List.length_cons]
    omega
  all_goals simp

namespace Assignments

variable (made : Assignments)

def latest? (name : List Char) : Option (Option (List Char)) := made.reverse.lookup name

/-- A variable means what was assigned to it last, else what the environment holds, else its
fallback. -/
def meaning (environment : List (List Char × List Char)) (v : Reference) : List Char :=
  match made.latest? v.name with
  | some value => value.getD []
  | none => (environment.lookup v.name).getD v.fallback

def assign (environment : List (List Char × List Char)) (binding : Binding) : Assignments :=
  made ++ [(binding.name, binding.value.map (expand (made.meaning environment)))]

/-- What a file assigns, starting from nothing. -/
def ofFile (environment : List (List Char × List Char)) (file : List Char) : Assignments :=
  (bindings (unifyLineEnds (skipByteOrderMark file))).foldl (assign · environment) []

end Assignments

end DiceRoller.EnvFile
