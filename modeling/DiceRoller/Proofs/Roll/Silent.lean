import DiceRoller.Roll.Run

/-!
# Silent rolls

A roll without its events draws the same faces and ends in the same way (`run_silent`). So two
rolls that are equal once they are silent can differ in their journals alone.
-/

namespace DiceRoller

variable {σ ε α β : Type}

def Ending.map (f : α → β) : Ending ε α → Ending ε β
  | .finished value => .finished (f value)
  | .stopped reason => .stopped reason
  | .exhausted => .exhausted

def Played.map (f : α → β) (played : Played σ ε α) : Played σ ε β :=
  ⟨played.ending.map f, played.tray, played.journal⟩

/-- Both plays end in the same way and leave the same of the source after the same draws. -/
structure Played.Alike (a b : Played σ ε α) : Prop where
  ending_eq : a.ending = b.ending
  tray_eq : a.tray = b.tray

namespace Roll

/-- The roll without its events. -/
def silent : Roll ε α → Roll ε α
  | .done outcome => .done outcome
  | .draw die next => .draw die fun face => (next face).silent
  | .note _ next => next.silent

theorem silent_pure (value : α) : (pure value : Roll ε α).silent = pure value := rfl

theorem silent_bind (r : Roll ε α) (f : α → Roll ε β) :
    (r >>= f).silent = r.silent >>= fun value => (f value).silent := by
  simp only [bind_eq]
  induction r with
  | done outcome => cases outcome <;> rfl
  | draw die next ih => exact congrArg (draw die) (funext ih)
  | note event next ih => exact ih

theorem silent_noting (event : Event) :
    (noting event : Roll ε Unit).silent = pure () := rfl

theorem silent_mapM (f : α → Roll ε β) (l : List α) :
    (l.mapM f).silent = l.mapM fun a => (f a).silent := by
  induction l with
  | nil => rfl
  | cons a l ih => simp only [List.mapM_cons, silent_bind, silent_pure, ih]

theorem silent_settle (r : Roll Failure α) : r.settle.silent = r.silent.settle := by
  induction r with
  | done outcome =>
    match outcome with
    | .ok value => rfl
    | .error (.fault fault) => rfl
    | .error (.abort reason) => rfl
  | draw die next ih => exact congrArg (draw die) (funext ih)
  | note event next ih => exact ih

theorem silent_dice (die : Die) (count : Nat) (drawn : List Int) :
    (dice die count drawn : Roll ε (List Int)).silent = dice die count drawn := by
  induction count generalizing drawn with
  | zero => rfl
  | succ count ih => exact congrArg (draw die) (funext fun face => ih (face :: drawn))

section Running

variable [DiceSource σ]

theorem run_silent (r : Roll ε α) (tray : Tray σ) :
    r.silent.run tray = ⟨(r.run tray).ending, (r.run tray).tray, []⟩ := by
  induction r generalizing tray with
  | done outcome => cases outcome <;> rfl
  | draw die next ih =>
    simp only [silent, run]
    cases DiceSource.draw die tray.source with
    | none => rfl
    | some given => exact ih given.1 _
  | note event next ih => exact ih tray

theorem ending_of_silent_eq_pure {r : Roll ε α} {value : α} (h : r.silent = pure value)
    (tray : Tray σ) : (r.run tray).ending = .finished value := by
  have ending := congrArg Played.ending (run_silent r tray)
  rw [h] at ending
  exact ending.symm

theorem alike_of_silent_eq {r s : Roll ε α} (h : r.silent = s.silent) (tray : Tray σ) :
    (r.run tray).Alike (s.run tray) := by
  have same := congrArg (Roll.run · tray) h
  simp only [run_silent, Played.mk.injEq] at same
  exact ⟨same.1, same.2.1⟩

theorem run_map (r : Roll ε α) (f : α → β) (tray : Tray σ) :
    (r >>= fun value => pure (f value)).run tray = (r.run tray).map f := by
  rw [bind_eq, run_bind]
  obtain ⟨ending, left, journal⟩ := r.run tray
  cases ending <;> simp [Played.andThen, Played.map, Ending.map, pure_eq, run]

end Running

end Roll

end DiceRoller
