import DiceRoller.Proofs.Expression.Aborting
import DiceRoller.Proofs.Pool.Courses
import DiceRoller.Proofs.Request.Completeness
import DiceRoller.Proofs.Roll.Scripted

/-!
# Shares of a request

The throws of a request are dealt out to its expressions in the order of the text, and each
share is what its own expression draws: nothing if it is refused, and otherwise what its pool
needs (`Share`). Rolling a request neither looks beyond the faces that it uses nor leaves out
one of them (`roll_shares`).
-/

namespace DiceRoller

section Dealing

variable {α β γ : Type} {step step' : α → γ → β → Prop} {as : List α} {shares : List γ}
  {bs : List β}

theorem Dealt.mono (h : Dealt step as shares bs)
    (le : ∀ a share b, step a share b → step' a share b) : Dealt step' as shares bs := by
  induction h with
  | nil => exact .nil
  | cons first _ ih => exact .cons (le _ _ _ first) ih

theorem Dealt.exists_of_mem (h : Dealt step as shares bs) {b : β} (hb : b ∈ bs) :
    ∃ a ∈ as, ∃ share, step a share b := by
  induction h with
  | nil => cases hb
  | cons first _ ih =>
    rcases List.mem_cons.mp hb with rfl | hb
    · exact ⟨_, List.mem_cons_self, _, first⟩
    · obtain ⟨a, ha, found⟩ := ih hb
      exact ⟨a, List.mem_cons_of_mem _ ha, found⟩

theorem Dealt.append (h : Dealt step as shares bs) {as' : List α} {shares' : List γ}
    {bs' : List β} (h' : Dealt step as' shares' bs') :
    Dealt step (as ++ as') (shares ++ shares') (bs ++ bs') := by
  induction h with
  | nil => exact h'
  | cons first _ ih => exact .cons first ih

end Dealing

namespace Request

/-- The throws that an expression takes and the result that they lead to. -/
inductive Share (settings : Settings) (e : String) : List Throw → Result → Prop
  | refused {fault : Fault} (read : Expression.read settings.maxDice e = .error (.fault fault)) :
      Share settings e [] (.failed (Expression.canonical e) fault)
  | rolled {expression : Expression} {faces : List Int} {tally : Tally}
      (read : Expression.read settings.maxDice e = .ok expression)
      (draws : expression.Draws settings.maxRolledDice faces (some tally)) :
      Share settings e (throwsOf expression.die faces) ⟨Expression.canonical e, .ok tally⟩
  | overflow {expression : Expression} {faces : List Int} {fault : Fault}
      (read : Expression.read settings.maxDice e = .ok expression)
      (draws : expression.Draws settings.maxRolledDice faces none)
      (words : Failure.overflow (Expression.canonical e) settings.maxRolledDice = .fault fault) :
      Share settings e (throwsOf expression.die faces) (.failed (Expression.canonical e) fault)

/-- The throws of a line are dealt out to its expressions. -/
structure LineShare (settings : Settings) (line : Line) (share : List Throw) (group : Group) :
    Prop where
  label_eq : group.label = line.label
  results : ∃ shares, share = shares.flatten ∧
    Dealt (Share settings) line.expressions shares group.results

variable {settings : Settings} {throws : List Throw}

theorem course_noteFault {result made : Result}
    (h : (noteFault result).Course throws (.ok made)) : throws = [] ∧ made = result := by
  unfold noteFault at h
  split at h
  · exact Roll.Course.of_pure h
  · cases h with
    | note later => exact Roll.Course.of_pure later

theorem share_of_course {e : String} {result : Result}
    (h : (rollExpression settings e).Course throws (.ok result)) :
    Share settings e throws result := by
  obtain ⟨share, later, outcome, rfl, rolled, noted⟩ := Roll.Course.bind_ok h
  obtain ⟨rfl, rfl⟩ := course_noteFault noted
  have course := rolled.of_settle
  rw [List.append_nil]
  cases read : Expression.read settings.maxDice e with
  | error failure =>
    rw [readAndRoll_of_error read] at course
    cases outcome with
    | ok tally => cases course
    | error fault =>
      cases course
      exact .refused read
  | ok expression =>
    have within := (Expression.yields_read settings.maxDice e).of_eq_ok read
    rw [readAndRoll_of_ok read] at course
    obtain ⟨faces, made, rfl, draws, same⟩ := Expression.draws_of_course within.count_pos course
    cases made with
    | some tally =>
      cases outcome <;> cases same
      exact .rolled read draws
    | none =>
      cases outcome with
      | ok tally => cases same
      | error fault => exact .overflow read draws (Except.error.inj same).symm

theorem lineShare_of_course {line : Line} {group : Group}
    (h : (rollLine settings line).Course throws (.ok group)) :
    LineShare settings line throws group := by
  obtain ⟨share, later, results, rfl, rolled, made⟩ := Roll.Course.bind_ok h
  obtain ⟨rfl, rfl⟩ := made.of_pure
  obtain ⟨shares, rfl, dealt⟩ := rolled.of_mapM
  rw [List.append_nil]
  exact ⟨rfl, shares, rfl, dealt.mono fun _ _ _ => share_of_course⟩

theorem lineShares_of_course {text : String} {groups : List Group}
    (h : (roll settings text).Course throws (.ok groups)) :
    ∃ shares, throws = shares.flatten ∧
      Dealt (LineShare settings) (lines text) shares groups := by
  obtain ⟨share, later, rolled, rfl, course, noted⟩ := Roll.Course.bind_ok h
  obtain ⟨nothing, rest, _, rfl, note, made⟩ := noted.bind_ok
  obtain rfl := note.of_noting
  obtain ⟨rfl, rfl⟩ := made.of_pure
  obtain ⟨shares, rfl, dealt⟩ := course.of_mapM
  exact ⟨shares, by simp, dealt.mono fun _ _ _ => lineShare_of_course⟩

/-- Line after line, the throws of a request are dealt out to all of its expressions. -/
theorem shares_of_lineShares {ls : List Line} {shares : List (List Throw)} {groups : List Group}
    (h : Dealt (LineShare settings) ls shares groups) :
    ∃ parts, shares.flatten = parts.flatten ∧
      Dealt (Share settings) (ls.flatMap Line.expressions) parts
        (groups.flatMap Group.results) := by
  induction h with
  | nil => exact ⟨[], rfl, .nil⟩
  | cons first _ ih =>
    obtain ⟨parts, rfl, dealt⟩ := first.results
    obtain ⟨others, same, later⟩ := ih
    refine ⟨parts ++ others, ?_, dealt.append later⟩
    rw [List.flatten_cons, same, List.flatten_append]

theorem shares_of_course {text : String} {groups : List Group}
    (h : (roll settings text).Course throws (.ok groups)) :
    ∃ shares, throws = shares.flatten ∧
      Dealt (Share settings) ((lines text).flatMap Line.expressions) shares
        (groups.flatMap Group.results) := by
  obtain ⟨shares, rfl, dealt⟩ := lineShares_of_course h
  exact shares_of_lineShares dealt

/-- A request that does not exhaust its script ends in the same way on every script with the
faces drawn in front, and one that does draws on wherever there is more. The faces drawn for a
request that is rolled to its end are those that its expressions take, one after the other. -/
theorem roll_shares (settings : Settings) (text : String) (script : List Int) :
    let played := (roll settings text).run (Script.tray script)
    (played.ending ≠ .exhausted →
      played.tray.drawn ≤ script.length ∧
      ∀ other : List Int, other.take played.tray.drawn = script.take played.tray.drawn →
        let again := (roll settings text).run (Script.tray other)
        again.ending = played.ending ∧ again.tray.drawn = played.tray.drawn) ∧
    (played.ending = .exhausted → played.tray.drawn = script.length) ∧
    (∀ face more, played.ending = .exhausted ↔ script.length <
      ((roll settings text).run (Script.tray (script ++ face :: more))).tray.drawn) ∧
    ∀ groups, played.ending = .finished groups →
      ∃ shares, played.tray.drawn = (shares.map List.length).sum ∧
        script.take played.tray.drawn = shares.flatten.map Throw.face ∧
        Dealt (Share settings) ((lines text).flatMap Line.expressions) shares
          (groups.flatMap Group.results) := by
  dsimp only
  refine ⟨Roll.run_of_agree, ?_, Roll.exhausted_iff, ?_⟩
  · intro h
    have all := (Roll.drawn_of_exhausted h).1
    rwa [Nat.zero_add] at all
  · intro groups h
    obtain ⟨throws, course, front, drawn⟩ :=
      Roll.exists_course_script (show _ = Ending.ofOutcome (.ok groups) from h)
    obtain ⟨shares, rfl, dealt⟩ := shares_of_course course
    refine ⟨shares, ?_, ?_, dealt⟩
    · exact drawn.trans List.length_flatten
    · exact (congrArg script.take drawn).trans (Roll.take_drawn front)

theorem roll_shares_of_two_lines :
    let played (script : List Int) := (roll {} "2d6, 3dX\n2d6rv5").run (Script.tray script)
    (played [4, 2, 6, 1, 3]).tray.drawn = 5 ∧
      (played [4, 2, 6]).ending = .exhausted ∧ (played [4, 2, 6]).tray.drawn = 3 := by
  intro played
  have drawn : (played [4, 2, 6, 1, 3]).tray.drawn = 5 := by decide +kernel
  obtain ⟨-, all, more, -⟩ := roll_shares {} "2d6, 3dX\n2d6rv5" [4, 2, 6]
  have short : (played [4, 2, 6]).ending = .exhausted := by
    rw [more 1 [3], List.cons_append, List.cons_append, List.singleton_append, drawn]
    decide
  exact ⟨drawn, short, all short⟩

end Request

end DiceRoller
