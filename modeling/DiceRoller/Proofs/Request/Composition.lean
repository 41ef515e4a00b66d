import DiceRoller.Proofs.Expression.Canonical
import DiceRoller.Proofs.Roll.Silent
import DiceRoller.Request.Rolling
import DiceRoller.Source.Seeded

/-!
# Requests made of parts

A request cut at a line break is rolled as its first part and then its second part from what
that one left of the source. An expression that is refused draws nothing and changes no other
result, so that a request with it is rolled as the request without it, with one result more
(`roll_parts`). Only the journals differ.
-/

namespace DiceRoller

section Lists

variable {m : Type → Type} [Monad m] [LawfulMonad m] {α β : Type}

/-- A step that does nothing puts its value in where the list has its element. -/
theorem mapM_insertIdx {f : α → m β} {x : α} {y : β} (h : f x = pure y) (i : Nat) (l : List α) :
    (l.insertIdx i x).mapM f = l.mapM f >>= fun ys => pure (ys.insertIdx i y) := by
  induction l generalizing i with
  | nil =>
    cases i with
    | zero => simp [h]
    | succ i => simp
  | cons a l ih =>
    cases i with
    | zero => simp [h]
    | succ i => simp [ih]

theorem mapM_modify {f : α → m β} {g : α → α} {k : β → β}
    (h : ∀ a, f (g a) = f a >>= fun b => pure (k b)) (i : Nat) (l : List α) :
    (l.modify i g).mapM f = l.mapM f >>= fun ys => pure (ys.modify i k) := by
  induction l generalizing i with
  | nil => simp
  | cons a l ih =>
    cases i with
    | zero => simp [h]
    | succ i => simp [ih]

end Lists

namespace Request

/-- The line with one more expression before the one at place `i`. -/
def Line.insert (i : Nat) (e : String) (line : Line) : Line :=
  { line with expressions := line.expressions.insertIdx i e }

end Request

def Group.insert (i : Nat) (result : Result) (group : Group) : Group :=
  { group with results := group.results.insertIdx i result }

namespace Request

theorem linesOfChars_append (s t : List Char) :
    linesOfChars (s ++ '\n' :: t) = linesOfChars s ++ linesOfChars t := by
  have cut : (s ++ '\n' :: t).splitOn '\n' = s.splitOn '\n' ++ t.splitOn '\n' :=
    List.splitOnP_append_cons s t (by decide)
  simp only [linesOfChars, cut, List.map_append, List.filter_append]

theorem lines_append (a b : String) : lines (a ++ "\n" ++ b) = lines a ++ lines b := by
  rw [lines, String.toList_append, String.toList_append, List.append_assoc]
  exact linesOfChars_append a.toList b.toList

variable (settings : Settings)

theorem silent_roll (text : String) :
    (roll settings text).silent = (rollLines settings (lines text)).silent := by
  simp only [roll, Roll.silent_bind, Roll.silent_noting, Roll.silent_pure, pure_bind, bind_pure]

theorem silent_rollLines (ls : List Line) :
    (rollLines settings ls).silent = ls.mapM fun line => (rollLine settings line).silent :=
  Roll.silent_mapM _ _

theorem silent_rollLine (line : Line) :
    (rollLine settings line).silent =
      (line.expressions.mapM fun e => (rollExpression settings e).silent) >>= fun results =>
        pure ⟨line.label, results⟩ := by
  simp only [rollLine, Roll.silent_bind, Roll.silent_mapM, Roll.silent_pure]

theorem silent_roll_append (a b : String) :
    (roll settings (a ++ "\n" ++ b)).silent = Roll.silent do
      let above ← roll settings a
      let below ← roll settings b
      return above ++ below := by
  simp only [silent_roll, silent_rollLines, lines_append, List.mapM_append, Roll.silent_bind,
    Roll.silent_pure]

section Refused

variable {settings} {e : String} {fault : Fault}
  (refused : Expression.read settings.maxDice e = .error (.fault fault))

include refused

theorem silent_rollExpression :
    (rollExpression settings e).silent = pure (.failed (Expression.canonical e) fault) := by
  rw [← Expression.read_canonical] at refused
  simp only [rollExpression, Expression.readAndRoll, refused]
  rfl

theorem silent_rollLine_insert (i : Nat) (line : Line) :
    (rollLine settings (line.insert i e)).silent = (rollLine settings line).silent >>= fun group =>
      pure (group.insert i (.failed (Expression.canonical e) fault)) := by
  have more := mapM_insertIdx (f := fun e => (rollExpression settings e).silent)
    (silent_rollExpression refused) i line.expressions
  simp only [silent_rollLine, Line.insert, more, bind_assoc, pure_bind]
  rfl

theorem silent_rollLine_alone (label : Option String) :
    (rollLine settings ⟨label, [e]⟩).silent =
      pure ⟨label, [.failed (Expression.canonical e) fault]⟩ := by
  simp only [silent_rollLine, List.mapM_cons, List.mapM_nil, silent_rollExpression refused,
    pure_bind]

end Refused

variable {σ : Type} [DiceSource σ]

/-- Rolling is compositional. The parts of a request before and after a line break are rolled
one after the other, and an expression that is refused leaves all other results as they are,
wherever it stands in a line of others or in a line of its own. -/
theorem roll_parts (tray : Tray σ) :
    (∀ a b : String, ((roll settings (a ++ "\n" ++ b)).run tray).Alike
      (((roll settings a).run tray).andThen fun above tray =>
        ((roll settings b).run tray).map (above ++ ·))) ∧
    ∀ (a b e : String) (fault : Fault),
      Expression.read settings.maxDice e = .error (.fault fault) →
      (∀ i j, lines b = (lines a).modify i (Line.insert j e) →
        ((roll settings b).run tray).Alike (((roll settings a).run tray).map
          (·.modify i (Group.insert j (.failed (Expression.canonical e) fault))))) ∧
      (∀ i label, lines b = (lines a).insertIdx i ⟨label, [e]⟩ →
        ((roll settings b).run tray).Alike (((roll settings a).run tray).map
          (·.insertIdx i ⟨label, [.failed (Expression.canonical e) fault]⟩))) := by
  refine ⟨?_, ?_⟩
  · intro a b
    have alike := Roll.alike_of_silent_eq (silent_roll_append settings a b) tray
    rw [Roll.bind_eq, Roll.run_bind] at alike
    simpa only [Roll.run_map] using alike
  · intro a b e fault refused
    constructor
    · intro i j more
      rw [← Roll.run_map]
      apply Roll.alike_of_silent_eq
      simp only [Roll.silent_bind, Roll.silent_pure, silent_roll, silent_rollLines, more]
      exact mapM_modify (silent_rollLine_insert refused j) i (lines a)
    · intro i label more
      rw [← Roll.run_map]
      apply Roll.alike_of_silent_eq
      simp only [Roll.silent_bind, Roll.silent_pure, silent_roll, silent_rollLines, more]
      exact mapM_insertIdx (f := fun line => (rollLine settings line).silent)
        (silent_rollLine_alone refused label) i (lines a)

theorem roll_parts_refused_between :
    let settings : Settings := {}
    let tray : Tray Seeded := ⟨.ofSeed 7, 0⟩
    let fault := Expression.Flaw.noDice.fault "3dx"
    let refused := Result.failed "3dx" fault
    let plain := roll settings "2d6, 1d8"
    Expression.read settings.maxDice "3dX" = .error (.fault fault) ∧
      lines "2d6, 3dX, 1d8" = (lines "2d6, 1d8").modify 0 (Line.insert 1 "3dX") ∧
      lines "2d6, 1d8\nSave: 3dX" = (lines "2d6, 1d8").insertIdx 1 ⟨some "Save", ["3dX"]⟩ ∧
      ((roll settings "2d6, 3dX, 1d8").run tray).Alike
        ((plain.run tray).map (·.modify 0 (Group.insert 1 refused))) ∧
      ((roll settings "2d6, 1d8\nSave: 3dX").run tray).Alike
        ((plain.run tray).map (·.insertIdx 1 ⟨some "Save", [refused]⟩)) := by
  intro settings tray fault refused plain
  have failed : Expression.read settings.maxDice "3dX" = .error (.fault fault) := by decide +kernel
  have within : lines "2d6, 3dX, 1d8" = (lines "2d6, 1d8").modify 0 (Line.insert 1 "3dX") := by
    decide +kernel
  have below : lines "2d6, 1d8\nSave: 3dX" =
      (lines "2d6, 1d8").insertIdx 1 ⟨some "Save", ["3dX"]⟩ := by decide +kernel
  have quoted : Expression.canonical "3dX" = "3dx" := by decide +kernel
  refine ⟨failed, within, below, ?_, ?_⟩
  · have alike := ((roll_parts settings tray).2 "2d6, 1d8" _ "3dX" fault failed).1 0 1 within
    rwa [quoted] at alike
  · have alike := ((roll_parts settings tray).2 "2d6, 1d8" _ "3dX" fault failed).2 1 _ below
    rwa [quoted] at alike

end Request

end DiceRoller
