import DiceRoller.Roll.Basic

/-!
# Running a roll

A source gives faces until it is exhausted. Running a roll on a source counts the faces given
and collects the journal. `run_bind` says that a roll made of two parts runs as the first
part and then, unless that ended early, as the second part from what the first one left, and
`run_settle` that settling a fault changes neither the faces drawn nor the journal.
-/

namespace DiceRoller

class DiceSource (σ : Type) where
  draw : Die → σ → Option (Int × σ)

structure Tray (σ : Type) where
  source : σ
  drawn : Nat := 0
  deriving Repr

inductive Ending (ε α : Type)
  | finished (value : α)
  | stopped (reason : ε)
  | exhausted
  deriving Repr

/-- How a roll ended, what it left of the source, and its journal in order. -/
structure Played (σ ε α : Type) where
  ending : Ending ε α
  tray : Tray σ
  journal : List Event

variable {σ ε α β : Type}

def Played.noting (event : Event) (played : Played σ ε α) : Played σ ε α :=
  { played with journal := event :: played.journal }

def Played.andThen (played : Played σ ε α) (f : α → Tray σ → Played σ ε β) : Played σ ε β :=
  match played.ending with
  | .finished value =>
    let later := f value played.tray
    { later with journal := played.journal ++ later.journal }
  | .stopped reason => ⟨.stopped reason, played.tray, played.journal⟩
  | .exhausted => ⟨.exhausted, played.tray, played.journal⟩

theorem Played.noting_andThen (event : Event) (played : Played σ ε α)
    (f : α → Tray σ → Played σ ε β) :
    (played.noting event).andThen f = (played.andThen f).noting event := by
  obtain ⟨ending, tray, journal⟩ := played
  cases ending <;> rfl

namespace Roll

variable [DiceSource σ]

def run : Roll ε α → Tray σ → Played σ ε α
  | .done (.ok value), tray => ⟨.finished value, tray, []⟩
  | .done (.error reason), tray => ⟨.stopped reason, tray, []⟩
  | .draw die next, tray =>
    match DiceSource.draw die tray.source with
    | some (face, source) => (next face).run ⟨source, tray.drawn + 1⟩
    | none => ⟨.exhausted, tray, []⟩
  | .note event next, tray => (next.run tray).noting event

theorem run_bind (r : Roll ε α) (f : α → Roll ε β) (tray : Tray σ) :
    (r.bind f).run tray = (r.run tray).andThen fun value tray => (f value).run tray := by
  induction r generalizing tray with
  | done outcome =>
    cases outcome with
    | error reason => rfl
    | ok value => simp [Roll.bind, run, Played.andThen]
  | draw die next ih =>
    simp only [Roll.bind, run]
    cases DiceSource.draw die tray.source with
    | none => rfl
    | some given => exact ih given.1 _
  | note event next ih =>
    simp only [Roll.bind, run, ih, Played.noting_andThen]

/-- How a settled roll ends when the roll itself ends so. -/
def settledEnding : Ending Failure α → Ending Abort (Except Fault α)
  | .finished value => .finished (.ok value)
  | .stopped (.fault fault) => .finished (.error fault)
  | .stopped (.abort reason) => .stopped reason
  | .exhausted => .exhausted

theorem run_settle (r : Roll Failure α) (tray : Tray σ) :
    r.settle.run tray =
      ⟨settledEnding (r.run tray).ending, (r.run tray).tray, (r.run tray).journal⟩ := by
  induction r generalizing tray with
  | done outcome =>
    match outcome with
    | .ok value => rfl
    | .error (.fault fault) => rfl
    | .error (.abort reason) => rfl
  | draw die next ih =>
    simp only [settle, run]
    cases DiceSource.draw die tray.source with
    | none => rfl
    | some given => exact ih given.1 _
  | note event next ih =>
    simp only [settle, run, ih]
    rfl

end Roll

end DiceRoller
