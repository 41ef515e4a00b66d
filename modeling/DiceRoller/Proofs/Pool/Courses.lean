import DiceRoller.Proofs.Pool.Drawing
import DiceRoller.Proofs.Roll.Course

/-!
# Courses of pools

What a pool has drawn when it comes to its end. A pool that does not expand draws its count.
An expanding one draws up to the miss that closes its last die, or it spends its whole budget
on faces with too few misses among them, unless it is not even begun. An expression draws in
one of these ways (`draws_of_course`).
-/

namespace DiceRoller

variable {ε α β : Type} {die : Die} {threshold : Int}

/-- The faces that an expanding pool of `count` dice draws, and what it makes of them when all
of its dice are closed. -/
inductive Expands (threshold : Int) (budget : Nat) (count : Int) (result : List Int → α) :
    List Int → Option α → Prop
  | completed {before : List Int} {miss : Int} (few : before.length < budget)
      (under : miss < threshold) (last : before.countP (· < threshold) + 1 = count) :
      Expands threshold budget count result (before ++ [miss]) (some (result (before ++ [miss])))
  | spent {faces : List Int} (size : faces.length = budget)
      (short : faces.countP (· < threshold) < count) :
      Expands threshold budget count result faces none

theorem misses_cons (threshold face : Int) (faces : List Int) :
    ((face :: faces).countP (· < threshold) : Int) =
      faces.countP (· < threshold) + if isHit threshold face then 0 else 1 := by
  rw [List.countP_cons]
  by_cases hit : isHit threshold face = true
  · have above := (isHit_eq_true_iff threshold).mp hit
    simp [hit, above]
  · have under := (isHit_eq_false_iff threshold).mp (Bool.eq_false_iff.mpr hit)
    simp [hit, under]

namespace Expands

variable {budget : Nat} {count face : Int} {result : List Int → α} {faces : List Int}
  {rolled : Option α}

/-- A face in front of the others is one more roll, and if it is a miss one die more is closed. -/
theorem cons (h : Expands threshold budget (if isHit threshold face then count else count - 1)
      (fun later => result (face :: later)) faces rolled) :
    Expands threshold (budget + 1) count result (face :: faces) rolled := by
  cases h with
  | @completed before miss few under last =>
    rw [← List.cons_append]
    refine .completed (Nat.succ_lt_succ few) under ?_
    rw [misses_cons]
    split_ifs at last ⊢ <;> omega
  | spent size short =>
    refine .spent (congrArg Nat.succ size) ?_
    rw [misses_cons]
    split_ifs at short ⊢ <;> omega

theorem map (f : α → β) (h : Expands threshold budget count result faces rolled) :
    Expands threshold budget count (fun later => f (result later)) faces (rolled.map f) := by
  cases h with
  | completed few under last => exact .completed few under last
  | spent size short => exact .spent size short

theorem countP_eq {value : α}
    (h : Expands threshold budget count result faces (some value)) :
    faces.countP (· < threshold) = count := by
  cases h with
  | completed few under last =>
    rw [List.countP_append, List.countP_singleton, if_pos (by simpa using under)]
    exact_mod_cast last

theorem length_le (h : Expands threshold budget count result faces rolled) :
    faces.length ≤ budget := by
  cases h with
  | completed few under last => simpa using few
  | spent size short => exact size.le

end Expands

section Pools

variable {throws : List Throw} {drawn : List Int}

theorem course_dice_iff {count : Nat} {outcome : Except ε (List Int)} :
    (Roll.dice die count drawn).Course throws outcome ↔
      ∃ faces, throws = throwsOf die faces ∧ faces.length = count ∧
        outcome = .ok (drawn.reverse ++ faces) := by
  induction count generalizing throws drawn with
  | zero =>
    constructor
    · rintro ⟨⟩
      exact ⟨[], rfl, rfl, by rw [List.append_nil]⟩
    · rintro ⟨faces, rfl, none, rfl⟩
      obtain rfl := List.length_eq_zero_iff.mp none
      rw [List.append_nil]
      exact .done _
  | succ count ih =>
    constructor
    · intro h
      cases h with
      | draw later =>
        obtain ⟨faces, rfl, rfl, rfl⟩ := ih.mp later
        exact ⟨_ :: faces, rfl, rfl, by simp⟩
    · rintro ⟨faces, rfl, size, rfl⟩
      obtain ⟨face, faces, rfl⟩ := List.exists_cons_of_length_eq_add_one size
      exact .draw (ih.mpr ⟨faces, rfl, Nat.succ.inj size, by simp⟩)

theorem course_reroll {budget : Nat} {pending : Int} (pos : 1 ≤ pending)
    {outcome : Except ε (Option (List Int))}
    (h : (reroll die threshold budget pending drawn).Course throws outcome) :
    ∃ faces rolled, throws = throwsOf die faces ∧ outcome = .ok rolled ∧
      Expands threshold budget pending (drawn.reverse ++ ·) faces rolled := by
  have started : pending ≠ 0 := by omega
  induction budget generalizing pending throws drawn with
  | zero =>
    rw [reroll, if_neg started] at h
    cases h
    exact ⟨[], none, rfl, rfl, .spent rfl (by simpa using Int.lt_of_lt_of_le Int.zero_lt_one pos)⟩
  | succ budget ih =>
    rw [reroll, if_neg started] at h
    cases h with
    | @draw _ _ face throws _ later =>
      have order (faces : List Int) :
          (face :: drawn).reverse ++ faces = drawn.reverse ++ face :: faces := by simp
      by_cases last : pending = 1 ∧ ¬ isHit threshold face = true
      · -- The last die is closed and nothing more is drawn.
        obtain ⟨rfl, miss⟩ := last
        have under := (isHit_eq_false_iff threshold).mp (Bool.eq_false_iff.mpr miss)
        simp only [if_neg miss, Int.sub_self, reroll_pending_zero] at later
        cases later
        refine ⟨[] ++ [face], _, rfl, rfl, ?_⟩
        rw [List.reverse_cons]
        exact .completed (Nat.succ_pos budget) under rfl
      · have more : 1 ≤ if isHit threshold face then pending else pending - 1 := by
          split_ifs with hit
          · exact pos
          · have other : pending ≠ 1 := fun one => last ⟨one, hit⟩
            omega
        obtain ⟨faces, rolled, rfl, rfl, expands⟩ := ih more later (by omega)
        simp only [order] at expands
        exact ⟨face :: faces, rolled, rfl, rfl, expands.cons⟩

theorem course_explode {budget count : Nat} (pos : 1 ≤ count)
    {outcome : Except ε (Option (List (List Int)))}
    (h : (explode die threshold budget count [] []).Course throws outcome) :
    ∃ faces rolled, throws = throwsOf die faces ∧ outcome = .ok rolled ∧
      Expands threshold budget count (chainsFrom threshold []) faces rolled := by
  have order : ([] : List Int).reverse = ([] : List (List Int)).reverse.flatten ++ [].reverse := rfl
  have idle : count = 0 → ([] : List Int) = [] := fun _ => rfl
  rw [explode_eq_reroll die threshold budget count order (by simp) (by simp) idle,
    ← Roll.bind_eq] at h
  rcases h.of_bind with ⟨first, later, rolled, rfl, course, ends⟩ | ⟨reason, -, course⟩
  · obtain ⟨faces, _, rfl, same, expands⟩ := course_reroll (Int.ofNat_le.mpr pos) course
    cases same
    cases ends
    exact ⟨faces, _, List.append_nil _, rfl, expands.map (chainsFrom threshold [])⟩
  · obtain ⟨_, _, -, failed, -⟩ := course_reroll (Int.ofNat_le.mpr pos) course
    cases failed

end Pools

namespace Expression

/-- The threshold of a pool that expands. -/
def expansion? (e : Expression) : Option Int :=
  match e.modifier with
  | some (.count .exploding threshold) => some threshold
  | some (.count .reroll threshold) => some threshold
  | _ => none

/-- The faces that an expression draws under a cap, and its tally unless it overflows. -/
inductive Draws (e : Expression) (cap : Int) : List Int → Option Tally → Prop
  | once {faces : List Int} (plain : e.expansion? = none) (size : faces.length = e.count.toNat) :
      Draws e cap faces (some (e.tallyOf faces))
  | excluded {threshold : Int} (kind : e.expansion? = some threshold) (above : cap < e.count) :
      Draws e cap [] none
  | expanded {threshold : Int} {faces : List Int} {made : Option Tally}
      (kind : e.expansion? = some threshold) (within : e.count ≤ cap)
      (expands : Expands threshold cap.toNat e.count e.tallyOf faces made) : Draws e cap faces made

section Plain

variable {e : Expression} (plain : e.expansion? = none)

include plain

theorem tallyOf_of_plain : e.tallyOf = e.score := by
  funext faces
  unfold tallyOf
  split
  · rename_i hm
    simp [expansion?, hm] at plain
  · rfl

theorem roll_of_plain (text : String) (cap : Int) :
    e.roll text cap = Roll.dice e.die e.count.toNat [] >>= fun faces => pure (e.tallyOf faces) := by
  rw [tallyOf_of_plain plain]
  unfold roll
  split
  · rename_i hm
    simp [expansion?, hm] at plain
  · rename_i hm
    simp [expansion?, hm] at plain
  · rfl

/-- An expression that does not expand takes as many faces as it has dice, whichever they are. -/
theorem course_of_plain (text : String) (cap : Int) {faces : List Int}
    (size : faces.length = e.count.toNat) :
    (e.roll text cap).Course (throwsOf e.die faces) (.ok (e.tallyOf faces)) := by
  have dice : (Roll.dice (ε := Failure) e.die e.count.toNat []).Course (throwsOf e.die faces)
      (.ok faces) := course_dice_iff.mpr ⟨faces, rfl, size, rfl⟩
  have course := dice.bind (f := fun faces => pure (e.tallyOf faces)) (.done _)
  rwa [List.append_nil, ← roll_of_plain plain text cap] at course

end Plain

section Courses

variable {e : Expression} {text : String} {cap : Int} {throws : List Throw}
  {outcome : Except Failure Tally}

theorem draws_of_plain (plain : e.expansion? = none) (h : (e.roll text cap).Course throws outcome) :
    ∃ faces made, throws = throwsOf e.die faces ∧ e.Draws cap faces made ∧
      outcome = made.elim (.error (.overflow text cap)) .ok := by
  rw [roll_of_plain plain] at h
  rcases h.of_bind with ⟨first, later, drawn, rfl, course, ends⟩ | ⟨reason, -, course⟩
  · obtain ⟨faces, rfl, size, made⟩ := course_dice_iff.mp course
    cases made
    cases ends
    exact ⟨faces, some (e.tallyOf faces), List.append_nil _, .once plain size, rfl⟩
  · obtain ⟨faces, -, -, failed⟩ := course_dice_iff.mp course
    cases failed

/-- The faces of an expanding expression are those of its pool, which is begun only below the
cap. -/
theorem draws_of_expanding (kind : e.expansion? = some threshold) {tally : α → Tally}
    {pool : Roll Failure (Option α)} {result : List Int → α}
    (same : ∀ faces, tally (result faces) = e.tallyOf faces)
    (begun : ∀ {throws rolling}, pool.Course throws rolling → ∃ faces rolled,
      throws = throwsOf e.die faces ∧ rolling = .ok rolled ∧
        Expands threshold cap.toNat e.count result faces rolled)
    (h : (e.expanding text cap tally pool).Course throws outcome) :
    ∃ faces made, throws = throwsOf e.die faces ∧ e.Draws cap faces made ∧
      outcome = made.elim (.error (.overflow text cap)) .ok := by
  unfold expanding at h
  by_cases above : cap < e.count
  · rw [if_pos above] at h
    cases h
    exact ⟨[], none, rfl, .excluded kind above, rfl⟩
  · rw [if_neg above, ← Roll.bind_eq] at h
    rcases h.of_bind with ⟨first, later, rolling, rfl, course, ends⟩ | ⟨reason, -, course⟩
    · obtain ⟨faces, rolled, rfl, rolls, expands⟩ := begun course
      obtain rfl := Except.ok.inj rolls
      have made := expands.map tally
      simp only [same] at made
      refine ⟨faces, rolling.map tally, ?_, .expanded kind (Int.not_lt.mp above) made, ?_⟩
      · cases rolling <;> cases ends <;> exact List.append_nil _
      · cases rolling <;> cases ends <;> rfl
    · obtain ⟨_, _, -, failed, -⟩ := begun course
      cases failed

/-- The ways in which the roll of an expression can go. -/
theorem draws_of_course (pos : 1 ≤ e.count) (h : (e.roll text cap).Course throws outcome) :
    ∃ faces made, throws = throwsOf e.die faces ∧ e.Draws cap faces made ∧
      outcome = made.elim (.error (.overflow text cap)) .ok := by
  match hm : e.modifier with
  | some (.count .exploding threshold) =>
    have kind : e.expansion? = some threshold := by rw [expansion?, hm]
    have whole : (e.count.toNat : Int) = e.count := Int.toNat_of_nonneg (by omega)
    have tally (faces : List Int) :
        Tally.ofChains e.bonus (chainsFrom threshold [] faces) = e.tallyOf faces := by
      rw [tallyOf, hm]
    simp only [roll, hm] at h
    refine draws_of_expanding kind tally (fun course => ?_) h
    rw [← whole]
    exact course_explode (by omega) course
  | some (.count .reroll threshold) =>
    have kind : e.expansion? = some threshold := by rw [expansion?, hm]
    have tally (faces : List Int) : e.score ([].reverse ++ faces) = e.tallyOf faces := by
      rw [tallyOf, hm]
      rfl
    simp only [roll, hm] at h
    exact draws_of_expanding kind tally (course_reroll pos) h
  | none | some (.select _ _) | some (.count .versus _) =>
    exact draws_of_plain (by rw [expansion?, hm]) h

end Courses

section Running

variable {σ : Type} [DiceSource σ] {e : Expression} (plain : e.expansion? = none) (text : String)
  (cap : Int) {tray : Tray σ}

include plain

theorem run_of_plain {faces : List Int} {after : σ} (size : faces.length = e.count.toNat)
    (given : Gives tray.source (throwsOf e.die faces) after) :
    ((e.roll text cap).run tray).ending = .finished (e.score faces) ∧
      ((e.roll text cap).run tray).tray = ⟨after, tray.drawn + faces.length⟩ := by
  obtain ⟨journal, run⟩ := (course_of_plain plain text cap size).run_eq given
  rw [run, tallyOf_of_plain plain, throwsOf, List.length_map]
  exact ⟨rfl, rfl⟩

/-- Too few faces for its dice are the one thing that can keep such an expression from an end. -/
theorem exhausted_of_plain (few : ∀ (faces : List Int) (after : σ), faces.length = e.count.toNat →
      ¬ Gives tray.source (throwsOf e.die faces) after) :
    ((e.roll text cap).run tray).ending = .exhausted := by
  apply Classical.byContradiction
  intro ended
  obtain ⟨outcome, ending⟩ := Ending.exists_outcome ended
  obtain ⟨throws, course, given, -⟩ := Roll.exists_course ending
  obtain ⟨faces, made, rfl, draws, -⟩ := draws_of_plain plain course
  cases draws with
  | once _ size => exact few faces _ size given
  | excluded kind => simp [plain] at kind
  | expanded kind => simp [plain] at kind

end Running

end Expression

end DiceRoller
