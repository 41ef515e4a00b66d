import DiceRoller.Numeral
import Mathlib.Data.List.Forall2

/-!
# What a computation yields

Where something is read or put into words the result is a value or a reason why there is none.
Reading a numeral and writing an integer fail on too many digits alone.
-/

namespace DiceRoller

variable {ε α β γ : Type}

/-- The value is `good`, or the reason why there is none is `bad`. -/
inductive Yields (good : α → Prop) (bad : ε → Prop) : Except ε α → Prop
  | ok {value : α} (h : good value) : Yields good bad (.ok value)
  | error {reason : ε} (h : bad reason) : Yields good bad (.error reason)

namespace Yields

variable {good good' : α → Prop} {bad bad' : ε → Prop} {outcome : Except ε α}

theorem mono (h : Yields good bad outcome) (hgood : ∀ value, good value → good' value)
    (hbad : ∀ reason, bad reason → bad' reason) : Yields good' bad' outcome := by
  cases h with
  | ok h => exact .ok (hgood _ h)
  | error h => exact .error (hbad _ h)

theorem of_eq_ok (h : Yields good bad outcome) {value : α} (made : outcome = .ok value) :
    good value := by
  subst made
  cases h with
  | ok h => exact h

theorem of_eq_error (h : Yields good bad outcome) {reason : ε} (failed : outcome = .error reason) :
    bad reason := by
  subst failed
  cases h with
  | error h => exact h

theorem bind {goal : β → Prop} {f : α → Except ε β} (h : Yields good bad outcome)
    (later : ∀ value, good value → Yields goal bad (f value)) :
    Yields goal bad (outcome >>= f) := by
  cases h with
  | ok h => exact later _ h
  | error h => exact .error h

/-- What each step makes of the partner of its element is so for all of them in order. -/
theorem mapM_of_forall₂ {f : β → Except ε γ} {partner : α → β → Prop} {rel : α → γ → Prop}
    {as : List α} {bs : List β} (h : List.Forall₂ partner as bs)
    (step : ∀ a b, a ∈ as → partner a b → Yields (rel a) bad (f b)) :
    Yields (List.Forall₂ rel as) bad (bs.mapM f) := by
  induction h with
  | nil => exact .ok .nil
  | @cons a b as bs first later ih =>
    rw [List.mapM_cons]
    apply (step a b List.mem_cons_self first).bind
    intro c hc
    apply (ih fun x y hx => step x y (List.mem_cons_of_mem a hx)).bind
    intro cs hcs
    exact .ok (.cons hc hcs)

theorem mapM {f : α → Except ε β} {rel : α → β → Prop} {l : List α}
    (step : ∀ a ∈ l, Yields (rel a) bad (f a)) : Yields (List.Forall₂ rel l) bad (l.mapM f) := by
  apply mapM_of_forall₂ (List.forall₂_same.mpr fun a _ => Eq.refl a)
  rintro a b ha rfl
  exact step a ha

/-- What each step ensures of its value holds of all values. -/
theorem forall_mapM {f : α → Except ε β} {l : List α} {good : β → Prop}
    (step : ∀ a ∈ l, Yields good bad (f a)) : Yields (∀ b ∈ ·, good b) bad (l.mapM f) := by
  have each : Yields (List.Forall₂ (fun _ => good) l) bad (l.mapM f) := mapM step
  apply each.mono ?_ fun _ => id
  intro bs made
  clear step each
  induction made with
  | nil => simp
  | cons first _ ih => exact List.forall_mem_cons.mpr ⟨first, ih⟩

end Yields

/-- The failure is a fault of one kind or an abort of the other. -/
inductive Failure.Meets (good : Fault → Prop) (bad : Abort → Prop) : Failure → Prop
  | fault {fault : Fault} (h : good fault) : Meets good bad (.fault fault)
  | abort {reason : Abort} (h : bad reason) : Meets good bad (.abort reason)

namespace Failure.Meets

variable {good : Fault → Prop} {bad : Abort → Prop} {failure : Failure}

theorem of_eq_fault (h : failure.Meets good bad) {fault : Fault} (same : failure = .fault fault) :
    good fault := by
  subst same
  cases h with
  | fault h => exact h

theorem of_eq_abort (h : failure.Meets good bad) {reason : Abort}
    (same : failure = .abort reason) : bad reason := by
  subst same
  cases h with
  | abort h => exact h

end Failure.Meets

/-- The reason is a limit on the number of digits. -/
def Abort.OfDigits : Abort → Prop
  | .longNumeral digits => Numeral.maxDigits < digits
  | .longInteger => True
  | .emptyRequest => False

namespace Numeral

theorem yields_read (digits : List Char) :
    Yields (· = value digits) Abort.OfDigits (read digits) := by
  unfold read
  by_cases short : digits.length ≤ maxDigits
  · rw [if_pos short]
    exact .ok rfl
  · rw [if_neg short]
    exact .error (Nat.not_le.mp short)

theorem yields_write (n : Int) :
    Yields (· = toString n) (fun reason => reason = .longInteger ∧ ¬ n.natAbs < bound)
      (write n) := by
  unfold write
  by_cases short : n.natAbs < bound
  · rw [if_pos short]
    exact .ok rfl
  · rw [if_neg short]
    exact .error ⟨rfl, short⟩

end Numeral

end DiceRoller
