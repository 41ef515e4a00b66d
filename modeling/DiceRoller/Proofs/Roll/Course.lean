import DiceRoller.Roll.Run

/-!
# Courses of a roll

A course of a roll is one way for its dice to fall: the throws that it asks for, in order, and
the outcome that they lead to. On any source, a roll that does not exhaust it follows the course
of the throws that the source gives (`exists_course`), and with these throws it takes this
course again, whatever the source has after them (`Course.run_eq`).
-/

namespace DiceRoller

variable {σ ε α β γ : Type}

/-- A die that was asked for and the face that it showed. -/
structure Throw where
  die : Die
  face : Int

/-- Equal dice that showed these faces. -/
def throwsOf (die : Die) (faces : List Int) : List Throw := faces.map (⟨die, ·⟩)

/-- The source gives the throws one after the other. -/
inductive Gives [DiceSource σ] : σ → List Throw → σ → Prop
  | nil (source : σ) : Gives source [] source
  | cons {before between after : σ} {throw : Throw} {throws : List Throw}
      (first : DiceSource.draw throw.die before = some (throw.face, between))
      (later : Gives between throws after) : Gives before (throw :: throws) after

/-- The ending of a roll that comes to this outcome. -/
def Ending.ofOutcome : Except ε α → Ending ε α
  | .ok value => .finished value
  | .error reason => .stopped reason

theorem Ending.exists_outcome {ending : Ending ε α} (h : ending ≠ .exhausted) :
    ∃ outcome, ending = .ofOutcome outcome := by
  cases ending with
  | finished value => exact ⟨.ok value, rfl⟩
  | stopped reason => exact ⟨.error reason, rfl⟩
  | exhausted => exact absurd rfl h

/-- Each element has its share of what is dealt out and a result made of it. -/
inductive Dealt (step : α → γ → β → Prop) : List α → List γ → List β → Prop
  | nil : Dealt step [] [] []
  | cons {a : α} {share : γ} {b : β} {as : List α} {shares : List γ} {bs : List β}
      (first : step a share b) (later : Dealt step as shares bs) :
      Dealt step (a :: as) (share :: shares) (b :: bs)

namespace Roll

/-- The roll asks for the dice of the throws, in order, and with their faces comes to the
outcome. -/
inductive Course : Roll ε α → List Throw → Except ε α → Prop
  | done (outcome : Except ε α) : Course (.done outcome) [] outcome
  | draw {die : Die} {next : Int → Roll ε α} {face : Int} {throws : List Throw}
      {outcome : Except ε α} (later : Course (next face) throws outcome) :
      Course (.draw die next) (⟨die, face⟩ :: throws) outcome
  | note {event : Event} {next : Roll ε α} {throws : List Throw} {outcome : Except ε α}
      (later : Course next throws outcome) : Course (.note event next) throws outcome

section Running

variable [DiceSource σ] {r : Roll ε α} {tray : Tray σ} {outcome : Except ε α}

theorem Course.run_eq {throws : List Throw} (h : r.Course throws outcome) {after : σ}
    (given : Gives tray.source throws after) :
    ∃ journal, r.run tray =
      ⟨.ofOutcome outcome, ⟨after, tray.drawn + throws.length⟩, journal⟩ := by
  induction h generalizing tray with
  | done outcome =>
    cases given
    cases outcome <;> exact ⟨[], rfl⟩
  | @draw die next face throws outcome _ ih =>
    cases given with
    | @cons _ between _ _ _ first later =>
      obtain ⟨journal, run⟩ := @ih ⟨between, tray.drawn + 1⟩ later
      refine ⟨journal, ?_⟩
      simp only [Roll.run, first, run, List.length_cons]
      rw [Nat.add_assoc, Nat.add_comm 1]
  | @note event next throws outcome _ ih =>
    obtain ⟨journal, run⟩ := ih given
    exact ⟨event :: journal, by simp only [Roll.run, run, Played.noting]⟩

theorem exists_course (h : (r.run tray).ending = .ofOutcome outcome) :
    ∃ throws, r.Course throws outcome ∧ Gives tray.source throws (r.run tray).tray.source ∧
      (r.run tray).tray.drawn = tray.drawn + throws.length := by
  induction r generalizing tray with
  | done found =>
    refine ⟨[], ?_, ?_, ?_⟩
    · cases found <;> cases outcome <;> cases h <;> exact .done _
    · cases found <;> exact .nil _
    · cases found <;> rfl
  | draw die next ih =>
    unfold run at h ⊢
    cases given : DiceSource.draw die tray.source with
    | none =>
      simp only [given] at h
      cases outcome <;> cases h
    | some found =>
      obtain ⟨face, between⟩ := found
      simp only [given] at h ⊢
      obtain ⟨throws, course, later, drawn⟩ := ih face h
      refine ⟨⟨die, face⟩ :: throws, .draw course, .cons given later, ?_⟩
      rw [drawn, List.length_cons, Nat.add_assoc, Nat.add_comm 1]
  | note event next ih =>
    obtain ⟨throws, course, given, drawn⟩ := ih h
    exact ⟨throws, .note course, given, drawn⟩

theorem exists_course_of_finished {value : α} (h : (r.run tray).ending = .finished value) :
    ∃ throws, r.Course throws (.ok value) ∧ Gives tray.source throws (r.run tray).tray.source := by
  obtain ⟨throws, course, given, -⟩ := exists_course (show _ = Ending.ofOutcome (.ok value) from h)
  exact ⟨throws, course, given⟩

end Running

section Parts

variable {throws : List Throw}

theorem Course.bind {r : Roll ε α} {f : α → Roll ε β} {later : List Throw} {value : α}
    {outcome : Except ε β} (first : r.Course throws (.ok value))
    (goes : (f value).Course later outcome) : (r >>= f).Course (throws ++ later) outcome := by
  rw [bind_eq]
  generalize found : (.ok value : Except ε α) = between at first
  induction first with
  | done outcome =>
    subst found
    exact goes
  | draw _ ih => exact .draw (ih found)
  | note _ ih => exact .note (ih found)

/-- A roll made of two parts goes through the first and then the second, or stops in the first. -/
theorem Course.of_bind {r : Roll ε α} {f : α → Roll ε β} {outcome : Except ε β}
    (h : (r >>= f).Course throws outcome) :
    (∃ first later value, throws = first ++ later ∧ r.Course first (.ok value) ∧
      (f value).Course later outcome) ∨
    ∃ reason, outcome = .error reason ∧ r.Course throws (.error reason) := by
  rw [bind_eq] at h
  induction r generalizing throws with
  | done found =>
    cases found with
    | ok value => exact Or.inl ⟨[], throws, value, rfl, .done _, h⟩
    | error reason =>
      cases h
      exact Or.inr ⟨reason, rfl, .done _⟩
  | draw die next ih =>
    cases h with
    | draw later =>
      rcases ih _ later with ⟨first, rest, value, rfl, course, goes⟩ | ⟨reason, same, course⟩
      · exact Or.inl ⟨_, rest, value, rfl, .draw course, goes⟩
      · exact Or.inr ⟨reason, same, .draw course⟩
  | note event next ih =>
    cases h with
    | note later =>
      rcases ih later with ⟨first, rest, value, split, course, goes⟩ | ⟨reason, same, course⟩
      · exact Or.inl ⟨first, rest, value, split, .note course, goes⟩
      · exact Or.inr ⟨reason, same, .note course⟩

theorem Course.bind_ok {r : Roll ε α} {f : α → Roll ε β} {made : β}
    (h : (r >>= f).Course throws (.ok made)) :
    ∃ first later value, throws = first ++ later ∧ r.Course first (.ok value) ∧
      (f value).Course later (.ok made) := by
  rcases h.of_bind with parts | ⟨reason, same, -⟩
  · exact parts
  · cases same

theorem Course.of_pure {value made : α} (h : (pure value : Roll ε α).Course throws (.ok made)) :
    throws = [] ∧ made = value := by
  cases h
  exact ⟨rfl, rfl⟩

theorem Course.of_noting {event : Event} {made : Unit}
    (h : (noting event : Roll ε Unit).Course throws (.ok made)) : throws = [] := by
  cases h with
  | note later => exact (Course.of_pure later).1

theorem Course.of_settle {r : Roll Failure α} {settled : Except Fault α}
    (h : r.settle.Course throws (.ok settled)) :
    r.Course throws (settled.mapError Failure.fault) := by
  induction r generalizing throws with
  | done found =>
    match found with
    | .ok value => cases h; exact .done _
    | .error (.fault fault) => cases h; exact .done _
    | .error (.abort reason) => cases h
  | draw die next ih =>
    cases h with
    | draw later => exact .draw (ih _ later)
  | note event next ih =>
    cases h with
    | note later => exact .note (ih later)

/-- The throws for a list are dealt out to its elements in order. -/
theorem Course.of_mapM {f : α → Roll ε β} {l : List α} {bs : List β}
    (h : (l.mapM f).Course throws (.ok bs)) :
    ∃ shares, throws = shares.flatten ∧
      Dealt (fun a share b => (f a).Course share (.ok b)) l shares bs := by
  induction l generalizing throws bs with
  | nil =>
    obtain ⟨rfl, rfl⟩ := Course.of_pure h
    exact ⟨[], rfl, .nil⟩
  | cons a l ih =>
    rw [List.mapM_cons] at h
    obtain ⟨share, later, b, rfl, first, goes⟩ := h.bind_ok
    obtain ⟨between, last, made, rfl, others, ends⟩ := goes.bind_ok
    obtain ⟨rfl, rfl⟩ := ends.of_pure
    obtain ⟨shares, rfl, dealt⟩ := ih others
    exact ⟨share :: shares, by simp, .cons first dealt⟩

end Parts

end Roll

end DiceRoller
