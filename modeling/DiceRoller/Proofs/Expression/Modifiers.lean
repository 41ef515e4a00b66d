import DiceRoller.Expression.Reading
import DiceRoller.Proofs.Expression.Scanning
import DiceRoller.Proofs.Numeral
import Mathlib.Data.List.Nodup

/-!
# Gathering modifiers

A pair is taken up where none of its kind has been met, and refused where one has. Of three pairs
two are of one kind, and of two pairs of different kinds each refuses the other, so that a modifier
is read from one pair at most.
-/

namespace DiceRoller.Expression

open Numeral (maxDigits)

theorem readNumeral_of_le {digits : List Char} (h : digits.length ≤ Numeral.maxDigits) :
    readNumeral digits = .ok (Numeral.value digits) := by
  rw [readNumeral, Numeral.read_of_le h]
  rfl

/-- What a modifier does with the dice: it keeps some of them, or counts hits. -/
inductive Kind
  | selection
  | counting
  deriving DecidableEq, Repr

/-- The flaw of a text with two modifiers of the kind. -/
def Kind.second : Kind → Flaw
  | selection => .secondSelection
  | counting => .secondCounting

def Keyword.kind : Keyword → Kind
  | .select _ => .selection
  | .count _ => .counting

def Pair.kind (pair : Pair) : Kind := pair.spelling.keyword.kind

namespace Gathered

def Has (met : Gathered) : Kind → Prop
  | .selection => met.selection.isSome
  | .counting => met.counting.isSome

instance (met : Gathered) : DecidablePred met.Has
  | .selection => inferInstanceAs (Decidable (met.selection.isSome = true))
  | .counting => inferInstanceAs (Decidable (met.counting.isSome = true))

def put (met : Gathered) (pair : Pair) : Gathered :=
  match pair.spelling.keyword with
  | .select rule => { met with selection := some (rule, pair.digits.value) }
  | .count rule => { met with counting := some (rule, pair.digits.value) }

theorem not_has_empty (kind : Kind) : ¬ Has {} kind := by
  cases kind <;> simp [Has]

theorem has_put (met : Gathered) (pair : Pair) (kind : Kind) :
    (met.put pair).Has kind ↔ met.Has kind ∨ kind = pair.kind := by
  unfold put Pair.kind
  cases pair.spelling.keyword <;> cases kind <;> simp [Has, Keyword.kind]

theorem has_foldl_put (met : Gathered) (pairs : List Pair) (kind : Kind) :
    (pairs.foldl put met).Has kind ↔ met.Has kind ∨ kind ∈ pairs.map Pair.kind := by
  induction pairs generalizing met with
  | nil => simp
  | cons pair pairs ih =>
    rw [List.foldl_cons, ih, has_put, List.map_cons, List.mem_cons, or_assoc]

/-- Where its number can be read, a pair is refused for its kind alone. -/
theorem add_clause (text : String) (met : Gathered) {pair : Pair}
    (short : pair.digits.chars.length ≤ maxDigits) :
    met.add text pair.clause =
      if met.Has pair.kind then .error (refuse text pair.kind.second) else .ok (met.put pair) := by
  obtain ⟨selection, counting⟩ := met
  unfold add put Pair.kind Pair.clause
  rw [readNumeral_of_le short]
  cases pair.spelling.keyword with
  | select rule => cases selection <;> rfl
  | count rule => cases counting <;> rfl

/-- Pairs of kinds that are all new are all taken up. -/
theorem foldlM_add_of_nodup (text : String) {met : Gathered} {pairs : List Pair}
    (short : ∀ pair ∈ pairs, pair.digits.chars.length ≤ maxDigits)
    (new : ∀ pair ∈ pairs, ¬ met.Has pair.kind) (apart : (pairs.map Pair.kind).Nodup) :
    (pairs.map Pair.clause).foldlM (add text) met = .ok (pairs.foldl put met) := by
  induction pairs generalizing met with
  | nil => rfl
  | cons pair pairs ih =>
    have ⟨shortHere, shortLater⟩ := List.forall_mem_cons.mp short
    have ⟨newHere, newLater⟩ := List.forall_mem_cons.mp new
    have ⟨once, apartLater⟩ := List.nodup_cons.mp apart
    have stillNew : ∀ p ∈ pairs, ¬ (met.put pair).Has p.kind := by
      intro p hp
      rw [has_put, not_or]
      refine ⟨newLater p hp, fun same => once ?_⟩
      exact same ▸ List.mem_map_of_mem hp
    rw [List.map_cons, List.foldlM_cons, add_clause text met shortHere, if_neg newHere]
    exact ih shortLater stillNew apartLater

theorem foldlM_add_empty (text : String) {pairs : List Pair}
    (short : ∀ pair ∈ pairs, pair.digits.chars.length ≤ maxDigits)
    (apart : (pairs.map Pair.kind).Nodup) :
    (pairs.map Pair.clause).foldlM (add text) {} = .ok (pairs.foldl put {}) :=
  foldlM_add_of_nodup text short (fun _ _ => not_has_empty _) apart

end Gathered

/-- The pair is of the kind of an earlier one, and no pair before it is. -/
def FirstToRepeat (pairs : List Pair) (pair : Pair) : Prop :=
  ∃ before after, pairs = before ++ pair :: after ∧ (before.map Pair.kind).Nodup ∧
    pair.kind ∈ before.map Pair.kind

theorem exists_firstToRepeat {pairs : List Pair} (h : ¬ (pairs.map Pair.kind).Nodup) :
    ∃ pair, FirstToRepeat pairs pair := by
  induction pairs using List.reverseRecOn with
  | nil => simp at h
  | append_singleton pairs pair ih =>
    by_cases apart : (pairs.map Pair.kind).Nodup
    · refine ⟨pair, pairs, [], rfl, apart, ?_⟩
      by_contra new
      rw [List.map_append, List.map_singleton] at h
      exact h (List.concat_eq_append ▸ apart.concat new)
    · obtain ⟨first, before, after, rfl, found⟩ := ih apart
      exact ⟨first, before, after ++ [pair], by simp, found⟩

/-- There are no three kinds. -/
theorem cases_of_nodup {pairs : List Pair} (apart : (pairs.map Pair.kind).Nodup) :
    pairs = [] ∨ (∃ pair, pairs = [pair]) ∨ ∃ p q, pairs = [p, q] ∧ p.kind ≠ q.kind := by
  match pairs with
  | [] => exact Or.inl rfl
  | [pair] => exact Or.inr (Or.inl ⟨pair, rfl⟩)
  | [p, q] => exact Or.inr (Or.inr ⟨p, q, rfl, by simpa using apart⟩)
  | p :: q :: r :: _ =>
    cases hp : p.kind <;> cases hq : q.kind <;> cases hr : r.kind <;> simp [hp, hq, hr] at apart

theorem readModifier_nil (text : String) : readModifier text [] = .ok none := rfl

theorem readModifier_singleton (text : String) {pair : Pair}
    (short : pair.digits.chars.length ≤ Numeral.maxDigits) :
    readModifier text [pair.clause] = .ok (some pair.modifier) := by
  obtain ⟨spelling, digits⟩ := pair
  unfold readModifier
  rw [List.foldlM_cons, Gathered.add, Pair.clause, readNumeral_of_le short]
  cases spelling <;> rfl

section Several

variable (text : String) {pairs : List Pair}
  (short : ∀ pair ∈ pairs, pair.digits.chars.length ≤ maxDigits)

include short

theorem readModifier_of_firstToRepeat {pair : Pair} (first : FirstToRepeat pairs pair) :
    readModifier text (pairs.map Pair.clause) = .error (refuse text pair.kind.second) := by
  obtain ⟨before, after, rfl, apart, old⟩ := first
  have ⟨shortBefore, shortFrom⟩ := List.forall_mem_append.mp short
  have taken := Gathered.foldlM_add_empty text shortBefore apart
  have has := (Gathered.has_foldl_put {} before pair.kind).mpr (Or.inr old)
  have refused := Gathered.add_clause text (before.foldl Gathered.put {})
    (shortFrom pair List.mem_cons_self)
  unfold readModifier
  rw [List.map_append, List.foldlM_append, taken, List.map_cons]
  change (List.foldlM (Gathered.add text) _ (_ :: _) >>= _) = _
  rw [List.foldlM_cons, refused, if_pos has]
  rfl

theorem readModifier_of_kind_ne {p q : Pair} (two : pairs = [p, q]) (apart : p.kind ≠ q.kind) :
    readModifier text (pairs.map Pair.clause) = .error (refuse text .mixedModifiers) := by
  have both (kind : Kind) : (pairs.foldl Gathered.put {}).Has kind := by
    rw [Gathered.has_foldl_put, two]
    cases hp : p.kind <;> cases hq : q.kind <;> cases kind <;> simp_all
  unfold readModifier
  rw [Gathered.foldlM_add_empty text short (by simpa [two] using apart)]
  generalize pairs.foldl Gathered.put {} = met at both
  obtain ⟨selection, counting⟩ := met
  obtain ⟨one, rfl⟩ := Option.isSome_iff_exists.mp (both .selection)
  obtain ⟨other, rfl⟩ := Option.isSome_iff_exists.mp (both .counting)
  rfl

theorem readModifier_of_two_le (h : 2 ≤ pairs.length) :
    ∃ flaw, readModifier text (pairs.map Pair.clause) = .error (refuse text flaw) := by
  by_cases apart : (pairs.map Pair.kind).Nodup
  · rcases cases_of_nodup apart with rfl | ⟨pair, rfl⟩ | ⟨p, q, two, ne⟩
    · simp at h
    · simp at h
    · exact ⟨.mixedModifiers, readModifier_of_kind_ne text short two ne⟩
  · obtain ⟨pair, first⟩ := exists_firstToRepeat apart
    exact ⟨pair.kind.second, readModifier_of_firstToRepeat text short first⟩

end Several

end DiceRoller.Expression
