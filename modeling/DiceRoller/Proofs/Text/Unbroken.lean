import DiceRoller.Proofs.Numeral

/-!
# Unbroken texts

Texts of one line are put together to texts of one line, and a number is written in one line.
Lines are found again in a text that is broken between them alone (`splitOn_intercalate`).
-/

namespace DiceRoller

/-- The text has no line break. -/
def Unbroken (text : String) : Prop := '\n' ∉ text.toList

instance (text : String) : Decidable (Unbroken text) :=
  inferInstanceAs (Decidable (¬ '\n' ∈ text.toList))

@[simp]
theorem unbroken_append {a b : String} : Unbroken (a ++ b) ↔ Unbroken a ∧ Unbroken b := by
  rw [Unbroken, String.toList_append, List.mem_append, not_or]
  rfl

namespace Unbroken

theorem intercalate {sep : String} {parts : List String} (hsep : Unbroken sep)
    (h : ∀ part ∈ parts, Unbroken part) : Unbroken (sep.intercalate parts) := by
  rw [Unbroken, String.toList_intercalate]
  induction parts with
  | nil => exact List.not_mem_nil
  | cons first parts ih =>
    have later := ih fun part hpart => h part (List.mem_cons_of_mem first hpart)
    cases parts with
    | nil => simpa using show '\n' ∉ first.toList from h first List.mem_cons_self
    | cons second parts =>
      rw [List.map_cons, List.map_cons, List.intercalate_cons_cons, List.mem_append,
        List.mem_append, not_or, not_or]
      exact ⟨⟨h first List.mem_cons_self, hsep⟩, later⟩

/-- The lines of a text are those that it was put together from. -/
theorem splitOn_intercalate {ls : List String} (ne : ls ≠ []) (h : ∀ line ∈ ls, Unbroken line) :
    ("\n".intercalate ls).toList.splitOn '\n' = ls.map String.toList := by
  rw [String.toList_intercalate]
  apply List.splitOn_intercalate '\n' ?_ (by simpa using ne)
  intro line hline
  obtain ⟨text, htext, rfl⟩ := List.mem_map.mp hline
  exact h text htext

end Unbroken

theorem unbroken_toString (n : Int) : Unbroken (toString n) :=
  Numeral.not_mem_toString (by decide) (by decide) n

end DiceRoller
