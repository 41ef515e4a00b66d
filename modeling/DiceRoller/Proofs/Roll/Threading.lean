import DiceRoller.Roll.Run

/-!
# Rolls that go on from each other

The steps of a list are rolled in order, each from what the one before it left of the source.
If every step finishes from wherever it starts, so does the list, and its values are chained
by what each of them left behind (`Finishes.mapM`).
-/

namespace DiceRoller

variable {σ ε α β : Type}

/-- Values for the elements in order, where each step starts from the tray that the one before
it left. -/
inductive Threaded (step : Tray σ → α → β → Tray σ → Prop) :
    Tray σ → List α → List β → Tray σ → Prop
  | nil (tray : Tray σ) : Threaded step tray [] [] tray
  | cons {before between after : Tray σ} {a : α} {b : β} {as : List α} {bs : List β}
      (first : step before a b between) (later : Threaded step between as bs after) :
      Threaded step before (a :: as) (b :: bs) after

namespace Roll

variable [DiceSource σ]

/-- The roll comes to its end with a value, and the goal holds of it and of the tray left. -/
def Finishes (r : Roll ε α) (before : Tray σ) (goal : α → Tray σ → Prop) : Prop :=
  ∃ value after journal, r.run before = ⟨.finished value, after, journal⟩ ∧ goal value after

namespace Finishes

variable {before : Tray σ}

theorem of_pure {goal : α → Tray σ → Prop} {value : α} (h : goal value before) :
    (pure value : Roll ε α).Finishes before goal :=
  ⟨value, before, [], rfl, h⟩

theorem bind {middle : α → Tray σ → Prop} {goal : β → Tray σ → Prop} {r : Roll ε α}
    {f : α → Roll ε β} (h : r.Finishes before middle)
    (later : ∀ value between, middle value between → (f value).Finishes between goal) :
    (r >>= f).Finishes before goal := by
  obtain ⟨value, between, journal, run, reached⟩ := h
  obtain ⟨value', after, journal', run', goal'⟩ := later value between reached
  refine ⟨value', after, journal ++ journal', ?_, goal'⟩
  rw [bind_eq, run_bind, run]
  simp only [Played.andThen, run']

theorem mapM {f : α → Roll ε β} {step : Tray σ → α → β → Tray σ → Prop} {l : List α}
    (h : ∀ a ∈ l, ∀ tray, (f a).Finishes tray (step tray a)) (before : Tray σ) :
    (l.mapM f).Finishes before fun bs after => Threaded step before l bs after := by
  induction l generalizing before with
  | nil => exact of_pure (.nil before)
  | cons a l ih =>
    rw [List.mapM_cons]
    apply (h a List.mem_cons_self before).bind
    intro b between first
    apply (ih (fun x hx => h x (List.mem_cons_of_mem a hx)) between).bind
    intro bs after later
    exact of_pure (.cons first later)

end Finishes

theorem finishes_noting (event : Event) (before : Tray σ) :
    (noting event : Roll ε Unit).Finishes before fun _ after => after = before :=
  ⟨(), before, [event], rfl, rfl⟩

section Settling

variable {r : Roll Failure α} {before : Tray σ}

/-- A settled roll finishes with the value, and also with the fault that stopped the roll. -/
theorem finishes_settle {outcome : Except Fault α}
    (h : settledEnding (r.run before).ending = .finished outcome) :
    r.settle.Finishes before fun made after => made = outcome ∧ after = (r.run before).tray :=
  ⟨outcome, _, _, by rw [run_settle, h], rfl, rfl⟩

end Settling

end Roll

end DiceRoller
