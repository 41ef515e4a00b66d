import DiceRoller.Settings.Reading

/-!
# Limits

A limit is read from its text alone: it is the integer that the readers make of the text, if that
is at least one, and otherwise there is one item that tells what is wrong. Settings are read if both
limits are (`ofGiven_of_limits`) and else refused with the items of both (`ofGiven_of_allItems`).
-/

namespace DiceRoller.Settings

section Limits

variable (Reads : List Char → Except Misreading Int → Prop)

/-- What is wrong with the text of a limit. -/
inductive Flawed (text : List Char) : Problem → Prop
  | misread {why : Misreading} (h : Reads text (.error why)) : Flawed text (.misread why)
  | belowOne {n : Int} (h : Reads text (.ok n)) (low : n < 1) : Flawed text .belowOne

/-- The text sets a limit, or there is none and the limit is the preset one. -/
def Limits (preset : Int) (text? : Option (List Char)) (n : Int) : Prop :=
  match text? with
  | none => n = preset
  | some text => 1 ≤ n ∧ Reads text (.ok n)

variable {Reads} {Reads' : List Char → Except Misreading Int → Prop}
  (le : ∀ {text : List Char} {outcome : Except Misreading Int},
    Reads text outcome → Reads' text outcome)
  {preset n : Int} {text? : Option (List Char)}

include le in
theorem Flawed.mono {text : List Char} {problem : Problem} (h : Flawed Reads text problem) :
    Flawed Reads' text problem := by
  cases h with
  | misread h => exact .misread (le h)
  | belowOne h low => exact .belowOne (le h) low

include le in
theorem Limits.mono (h : Limits Reads preset text? n) : Limits Reads' preset text? n := by
  cases text? with
  | none => exact h
  | some text => exact ⟨h.1, le h.2⟩

theorem Limits.one_le (h : Limits Reads preset text? n) (hpreset : 1 ≤ preset) : 1 ≤ n := by
  cases text? with
  | none => exact Int.le_trans hpreset (Int.le_of_eq h.symm)
  | some text => exact h.1

end Limits

def level (given : Key → Option (List Char)) : String :=
  ((given .logLevel).map String.ofList).getD "WARNING"

namespace Readers

variable (readers : Readers)

def Reads (text : List Char) (outcome : Except Misreading Int) : Prop :=
  readers.integer text = outcome

section Limit

variable {readers} {key : Key} {preset n : Int} {text? : Option (List Char)}

theorem readLimit_of_ok {text : List Char} (h : readers.integer text = .ok n) :
    readers.readLimit key preset (some text) =
      if n < 1 then .error (key, .belowOne) else .ok n := by
  simp only [readLimit, h]

theorem readLimit_of_error {text : List Char} {why : Misreading}
    (h : readers.integer text = .error why) :
    readers.readLimit key preset (some text) = .error (key, .misread why) := by
  simp only [readLimit, h]

theorem readLimit_eq_ok_iff :
    readers.readLimit key preset text? = .ok n ↔ Limits readers.Reads preset text? n := by
  cases text? with
  | none => exact ⟨fun h => (Except.ok.inj h).symm, fun h => congrArg Except.ok (Eq.symm h)⟩
  | some text =>
    rw [Limits, Reads]
    cases read : readers.integer text with
    | error why => simp [readLimit_of_error read]
    | ok m =>
      rw [readLimit_of_ok read]
      split
      · rename_i low
        simp only [reduceCtorEq, Except.ok.injEq, false_iff, not_and]
        rintro high rfl
        omega
      · rename_i high
        simp only [Except.ok.injEq]
        exact ⟨fun same => ⟨same ▸ Int.not_lt.mp high, same⟩, And.right⟩

theorem readLimit_eq_error_iff {item : Key × Problem} :
    readers.readLimit key preset text? = .error item ↔
      item.1 = key ∧ ∃ text, text? = some text ∧ Flawed readers.Reads text item.2 := by
  obtain ⟨other, problem⟩ := item
  cases text? with
  | none => simp [readLimit]
  | some text =>
    constructor
    · intro h
      cases read : readers.integer text with
      | error why =>
        rw [readLimit_of_error read] at h
        cases h
        exact ⟨rfl, text, rfl, .misread read⟩
      | ok m =>
        rw [readLimit_of_ok read] at h
        split at h
        · rename_i low
          cases h
          exact ⟨rfl, text, rfl, .belowOne read low⟩
        · cases h
    · rintro ⟨rfl, given, same, flawed⟩
      obtain rfl := Option.some.inj same
      cases flawed with
      | misread read => exact readLimit_of_error read
      | belowOne read low => rw [readLimit_of_ok read, if_pos low]

end Limit

/-- The item of a limit that cannot be read. -/
def items : Except (Key × Problem) Int → List (Key × Problem)
  | .ok _ => []
  | .error item => [item]

section Given

variable (given : Key → Option (List Char))

def diceLimit : Except (Key × Problem) Int := readers.readLimit .maxDice 1000 (given .maxDice)

def rolledLimit : Except (Key × Problem) Int :=
  readers.readLimit .maxRolledDice 100 (given .maxRolledDice)

def allItems : List (Key × Problem) :=
  items (readers.diceLimit given) ++ items (readers.rolledLimit given)

theorem ofGiven_cases :
    (∃ dice rolled, readers.diceLimit given = .ok dice ∧ readers.rolledLimit given = .ok rolled ∧
      readers.ofGiven given = .ok ⟨dice, rolled, level given⟩) ∨
    readers.allItems given ≠ [] ∧ readers.ofGiven given = .error ⟨readers.allItems given⟩ := by
  unfold ofGiven allItems diceLimit rolledLimit level
  dsimp only
  cases readers.readLimit .maxDice 1000 (given .maxDice) with
  | ok dice =>
    cases readers.readLimit .maxRolledDice 100 (given .maxRolledDice) with
    | ok rolled => exact Or.inl ⟨dice, rolled, rfl, rfl, rfl⟩
    | error problem => exact Or.inr ⟨by simp [items], rfl⟩
  | error problem =>
    cases readers.readLimit .maxRolledDice 100 (given .maxRolledDice) <;>
      exact Or.inr ⟨by simp [items], rfl⟩

variable {readers given}

theorem ofGiven_of_limits {dice rolled : Int}
    (hdice : Limits readers.Reads 1000 (given .maxDice) dice)
    (hrolled : Limits readers.Reads 100 (given .maxRolledDice) rolled) :
    readers.ofGiven given = .ok ⟨dice, rolled, level given⟩ := by
  have hdice : readers.diceLimit given = .ok dice := readLimit_eq_ok_iff.mpr hdice
  have hrolled : readers.rolledLimit given = .ok rolled := readLimit_eq_ok_iff.mpr hrolled
  rcases readers.ofGiven_cases given with ⟨_, _, dice', rolled', ok⟩ | ⟨ne, -⟩
  · rw [hdice] at dice'
    rw [hrolled] at rolled'
    rw [ok, Except.ok.inj dice', Except.ok.inj rolled']
  · rw [allItems, hdice, hrolled] at ne
    exact absurd rfl ne

theorem ofGiven_of_allItems (ne : readers.allItems given ≠ []) :
    readers.ofGiven given = .error ⟨readers.allItems given⟩ := by
  rcases readers.ofGiven_cases given with ⟨_, _, hdice, hrolled, -⟩ | ⟨-, refused⟩
  · rw [allItems, hdice, hrolled] at ne
    exact absurd rfl ne
  · exact refused

theorem mem_items_readLimit {key : Key} {preset : Int} {text? : Option (List Char)}
    (item : Key × Problem) :
    item ∈ items (readers.readLimit key preset text?) ↔
      item.1 = key ∧ ∃ text, text? = some text ∧ Flawed readers.Reads text item.2 := by
  rw [← readLimit_eq_error_iff]
  cases readers.readLimit key preset text? with
  | ok n => simp [items]
  | error found => simp [items, eq_comm]

theorem mem_allItems_iff {key : Key} {problem : Problem} :
    (key, problem) ∈ readers.allItems given ↔
      key ≠ .logLevel ∧ ∃ text, given key = some text ∧ Flawed readers.Reads text problem := by
  rw [allItems, List.mem_append, diceLimit, rolledLimit, mem_items_readLimit, mem_items_readLimit]
  cases key <;> simp

theorem sublist_allItems :
    ((readers.allItems given).map (·.1)).Sublist [.maxDice, .maxRolledDice] := by
  have alone (key : Key) (preset : Int) (text? : Option (List Char)) :
      ((items (readers.readLimit key preset text?)).map (·.1)).Sublist [key] := by
    cases read : readers.readLimit key preset text? with
    | ok n => exact List.nil_sublist _
    | error item =>
      obtain ⟨rfl, -⟩ := readLimit_eq_error_iff.mp read
      exact List.Sublist.refl _
  rw [allItems, List.map_append]
  exact (alone .maxDice _ _).append (alone .maxRolledDice _ _)

end Given

end Readers

end DiceRoller.Settings
