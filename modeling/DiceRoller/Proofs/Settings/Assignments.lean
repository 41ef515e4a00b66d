import DiceRoller.Settings.EnvFile.Variables
import Mathlib.Data.List.Induction
import Mathlib.Data.List.Nodup

/-!
# The assignments of an environment file

What a file assigns is kept in a table that has every name once. The table tells of each name what
was assigned to it last, in the order in which the names first came up (`assigned_eq_table`).
-/

namespace DiceRoller.EnvFile.Assignments

variable (made : Assignments)

/-- The names in the order in which they first came up. -/
def names : List (List Char) := (made.map (·.1)).eraseDups

def table : Assigned := made.names.map fun name => (name, (made.latest? name).join)

section Names

variable {α : Type} [BEq α] [LawfulBEq α]

theorem eraseDups_concat_of_mem {l : List α} {a : α} (h : a ∈ l) :
    (l ++ [a]).eraseDups = l.eraseDups := by
  simp [List.eraseDups_append, List.removeAll, h]

theorem eraseDups_concat_of_not_mem {l : List α} {a : α} (h : a ∉ l) :
    (l ++ [a]).eraseDups = l.eraseDups ++ [a] := by
  simp [List.eraseDups_append, List.removeAll, h, List.eraseDups_cons]

theorem nodup_eraseDups (l : List α) : l.eraseDups.Nodup := by
  induction l using List.reverseRecOn with
  | nil => exact List.nodup_nil
  | append_singleton l a ih =>
    by_cases h : a ∈ l
    · rwa [eraseDups_concat_of_mem h]
    · rw [eraseDups_concat_of_not_mem h, List.nodup_append]
      refine ⟨ih, List.nodup_singleton a, fun b hb c hc => ?_⟩
      rintro rfl
      exact h (List.mem_singleton.mp hc ▸ List.mem_eraseDups.mp hb)

end Names

theorem set_map {names : List (List Char)} (nodup : names.Nodup)
    (value : List Char → Option (List Char)) (name : List Char) (given : Option (List Char)) :
    Assigned.set (names.map fun n => (n, value n)) name given =
      (if name ∈ names then names else names ++ [name]).map
        fun n => (n, if n = name then given else value n) := by
  induction names with
  | nil => simp [Assigned.set]
  | cons n names ih =>
    obtain ⟨fresh, rest⟩ := List.nodup_cons.mp nodup
    by_cases same : n = name
    · rw [← same, if_pos List.mem_cons_self, List.map_cons, List.map_cons, Assigned.set,
        if_pos rfl, if_pos rfl]
      refine congrArg _ (List.map_congr_left fun later mem => ?_)
      have other : later ≠ n := fun again => fresh (again ▸ mem)
      rw [if_neg other]
    · have later : (if name ∈ n :: names then n :: names else n :: names ++ [name]) =
          n :: if name ∈ names then names else names ++ [name] := by
        by_cases mem : name ∈ names
        · rw [if_pos (List.mem_cons_of_mem n mem), if_pos mem]
        · rw [if_neg mem, if_neg fun h => (List.mem_cons.mp h).elim (same ∘ Eq.symm) mem]
          rfl
      rw [later, List.map_cons, List.map_cons, Assigned.set, if_neg same, ih rest, if_neg same]

section Latest

variable {made : Assignments} {name : List Char}

theorem latest?_concat (other : List Char) (value : Option (List Char)) :
    latest? (made ++ [(name, value)]) other =
      if other = name then some value else made.latest? other := by
  rw [latest?, List.reverse_concat, List.lookup_cons]
  by_cases same : other = name
  · simp [same]
  · have apart : (other == name) = false := beq_eq_false_iff_ne.mpr same
    simp [same, apart, latest?]

theorem mem_names {entry : List Char × Option (List Char)} (h : entry ∈ made) :
    entry.1 ∈ made.names :=
  List.mem_eraseDups.mpr (List.mem_map_of_mem h)

theorem exists_of_mem_names (h : name ∈ made.names) : ∃ entry ∈ made, entry.1 = name :=
  List.mem_map.mp (List.mem_eraseDups.mp h)

theorem nodup_names (made : Assignments) : made.names.Nodup := nodup_eraseDups _

theorem names_concat (made : Assignments) (name : List Char) (value : Option (List Char)) :
    names (made ++ [(name, value)]) =
      if name ∈ made.names then made.names else made.names ++ [name] := by
  rw [names, List.map_append, List.map_singleton]
  split
  · rename_i mem
    exact eraseDups_concat_of_mem (List.mem_eraseDups.mp mem)
  · rename_i fresh
    exact eraseDups_concat_of_not_mem fun mem => fresh (List.mem_eraseDups.mpr mem)

theorem table_concat (made : Assignments) (name : List Char) (value : Option (List Char)) :
    table (made ++ [(name, value)]) = made.table.set name value := by
  rw [table, table, set_map made.nodup_names, names_concat]
  refine List.map_congr_left fun n _ => ?_
  rw [latest?_concat]
  split <;> rfl

end Latest

theorem assigned_eq_table (made : Assignments) : made.assigned = made.table := by
  induction made using List.reverseRecOn with
  | nil => rfl
  | append_singleton made last ih =>
    rw [assigned] at ih ⊢
    rw [List.foldl_concat, ih, table_concat]

end DiceRoller.EnvFile.Assignments
