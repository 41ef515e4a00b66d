import DiceRoller.Proofs.Roll.Course
import DiceRoller.Proofs.Roll.Silent

/-!
# What a roll notes

However the dice fall and wherever a roll ends, what it notes can be kept to one kind of event.
What comes after a value need be looked at for those values only to which some course of the roll
before it leads (`Notes.bind`).
-/

namespace DiceRoller

variable {σ ε α β : Type}

namespace Roll

/-- The roll leaves none but `good` events in the journal. -/
inductive Notes (good : Event → Prop) : Roll ε α → Prop
  | done (outcome : Except ε α) : Notes good (.done outcome)
  | draw {die : Die} {next : Int → Roll ε α} (later : ∀ face, Notes good (next face)) :
      Notes good (.draw die next)
  | note {event : Event} {next : Roll ε α} (h : good event) (later : Notes good next) :
      Notes good (.note event next)

variable {good : Event → Prop} {r : Roll ε α}

theorem notes_silent (r : Roll ε α) : r.silent.Notes good := by
  induction r with
  | done outcome => exact .done outcome
  | draw die next ih => exact .draw ih
  | note event next ih => exact ih

namespace Notes

theorem bind {f : α → Roll ε β} (h : r.Notes good)
    (later : ∀ value throws, r.Course throws (.ok value) → (f value).Notes good) :
    (r >>= f).Notes good := by
  rw [bind_eq]
  induction h with
  | done outcome =>
    cases outcome with
    | ok value => exact later value [] (.done _)
    | error reason => exact .done _
  | draw _ ih => exact .draw fun face => ih face fun value _ course => later value _ (.draw course)
  | note h _ ih => exact .note h (ih fun value throws course => later value throws (.note course))

theorem mapM {f : α → Roll ε β} {l : List α} (h : ∀ a ∈ l, (f a).Notes good) :
    (l.mapM f).Notes good := by
  induction l with
  | nil => exact .done _
  | cons a l ih =>
    rw [List.mapM_cons]
    apply (h a List.mem_cons_self).bind
    intro b _ _
    apply (ih fun x hx => h x (List.mem_cons_of_mem a hx)).bind
    intro bs _ _
    exact .done _

/-- The journal of a run holds good events also where the run is cut off. -/
theorem run [DiceSource σ] (h : r.Notes good) (tray : Tray σ) :
    ∀ event ∈ (r.run tray).journal, good event := by
  induction h generalizing tray with
  | done outcome => cases outcome <;> exact List.forall_mem_nil _
  | @draw die next _ ih =>
    unfold Roll.run
    cases DiceSource.draw die tray.source with
    | none => exact List.forall_mem_nil _
    | some given => exact ih given.1 _
  | note h _ ih => exact List.forall_mem_cons.mpr ⟨h, ih tray⟩

end Notes

end Roll

end DiceRoller
