import DiceRoller.Proofs.Roll.Silent

/-!
# Journals of rolls

No level reaches into a roll: without the events that a level does not show, the roll draws the
same faces and ends in the same way, and its journal has the others in the same order
(`run_showing`). What a journal holds can depend on how the roll ends, on its value or on its
coming to none; a relation that is kept by every part of the roll says so of all of its runs
(`Leaves.run`).
-/

namespace DiceRoller

variable {σ ε α β : Type}

namespace Roll

/-- The roll without the events that the level does not show. -/
def showing (threshold : Level) : Roll ε α → Roll ε α
  | .done outcome => .done outcome
  | .draw die next => .draw die fun face => (next face).showing threshold
  | .note event next =>
    if event.shownAt threshold then .note event (next.showing threshold)
    else next.showing threshold

theorem run_showing [DiceSource σ] (threshold : Level) (r : Roll ε α) (tray : Tray σ) :
    (r.showing threshold).run tray =
      ⟨(r.run tray).ending, (r.run tray).tray, shown threshold (r.run tray).journal⟩ := by
  induction r generalizing tray with
  | done outcome => cases outcome <;> rfl
  | draw die next ih =>
    simp only [showing, run]
    cases DiceSource.draw die tray.source with
    | none => rfl
    | some given => exact ih given.1 _
  | note event next ih =>
    cases visible : event.shownAt threshold with
    | true => simp [showing, run, Played.noting, shown, visible, ih]
    | false => simp [showing, run, Played.noting, shown, visible, ih]

/-- Begun with `before` in the journal, the roll comes to a value with a journal that is `good` for
it, and where it is stopped, or can be for want of a face, the journal is `early`. -/
inductive Leaves (good : α → List Event → Prop) (early : List Event → Prop) :
    List Event → Roll ε α → Prop
  | value {before : List Event} {value : α} (h : good value before) :
      Leaves good early before (.done (.ok value))
  | reason {before : List Event} {reason : ε} (h : early before) :
      Leaves good early before (.done (.error reason))
  | draw {before : List Event} {die : Die} {next : Int → Roll ε α} (h : early before)
      (later : ∀ face, Leaves good early before (next face)) :
      Leaves good early before (.draw die next)
  | note {before : List Event} {event : Event} {next : Roll ε α}
      (later : Leaves good early (before ++ [event]) next) :
      Leaves good early before (.note event next)

variable {good : α → List Event → Prop} {early : List Event → Prop} {before : List Event}

namespace Leaves

variable {r : Roll ε α}

theorem bind {goal : β → List Event → Prop} {f : α → Roll ε β} (h : r.Leaves good early before)
    (later : ∀ value journal, good value journal → (f value).Leaves goal early journal) :
    (r >>= f).Leaves goal early before := by
  rw [bind_eq]
  induction h with
  | value h => exact later _ _ h
  | reason h => exact .reason h
  | draw h _ ih => exact .draw h ih
  | note _ ih => exact .note ih

/-- Where every element adds what is told of its value, the list adds what is told of its values
in order. -/
theorem mapM {f : α → Roll ε β} {told : β → List Event} {l : List α} (h : early before)
    (each : ∀ a ∈ l, ∀ journal, early journal →
      (f a).Leaves (fun b after => after = journal ++ told b ∧ early after) early journal) :
    (l.mapM f).Leaves (fun bs after => after = before ++ bs.flatMap told ∧ early after)
      early before := by
  induction l generalizing before with
  | nil => exact .value ⟨(List.append_nil before).symm, h⟩
  | cons a l ih =>
    rw [List.mapM_cons]
    apply (each a List.mem_cons_self before h).bind
    rintro b between ⟨rfl, hbetween⟩
    apply (ih hbetween fun x hx => each x (List.mem_cons_of_mem a hx)).bind
    rintro bs after ⟨rfl, hafter⟩
    refine .value ⟨?_, hafter⟩
    rw [List.flatMap_cons, List.append_assoc]

theorem run [DiceSource σ] (h : r.Leaves good early before) (tray : Tray σ) :
    (∃ value, (r.run tray).ending = .finished value ∧
      good value (before ++ (r.run tray).journal)) ∨
    (∀ value, (r.run tray).ending ≠ .finished value) ∧
      early (before ++ (r.run tray).journal) := by
  induction h generalizing tray with
  | value h => exact Or.inl ⟨_, rfl, by rwa [Roll.run, List.append_nil]⟩
  | reason h =>
    refine Or.inr ⟨fun value => by simp [Roll.run], ?_⟩
    rwa [Roll.run, List.append_nil]
  | @draw before die next h _ ih =>
    cases drawn : DiceSource.draw die tray.source with
    | none =>
      refine Or.inr ⟨fun value => by simp [Roll.run, drawn], ?_⟩
      simp only [Roll.run, drawn, List.append_nil]
      exact h
    | some given =>
      simp only [Roll.run, drawn]
      exact ih given.1 _
  | note _ ih =>
    have rest := ih tray
    simp only [List.append_assoc, List.singleton_append] at rest
    exact rest

end Leaves

/-- A roll without events leaves the journal as it is. -/
theorem leaves_silent (r : Roll ε α) (h : early before) :
    r.silent.Leaves (fun _ journal => journal = before) early before := by
  induction r with
  | done outcome =>
    cases outcome with
    | ok value => exact .value rfl
    | error reason => exact .reason h
  | draw die next ih => exact .draw h ih
  | note event next ih => exact ih

end Roll

end DiceRoller
