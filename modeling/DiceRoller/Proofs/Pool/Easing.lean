import DiceRoller.Proofs.Pool.BestCut

/-!
# Pools that are easier to complete

A pool that expands is completed at the miss that closes its last die. With a higher threshold
there are more misses among the same faces and with fewer dice fewer of them are needed, so the
faces of a completed pool have such a miss at their end or before it
(`Completes.exists_earlier`). Nothing is refused then that was not refused before (`roll_eased`).
-/

namespace DiceRoller

/-- A list with so many elements of a kind has a prefix that ends with the last of them. -/
theorem exists_closing_prefix {α : Type} {p : α → Bool} {l : List α} {count : Nat}
    (pos : 1 ≤ count) (enough : count ≤ l.countP p) :
    ∃ before last, before ++ [last] <+: l ∧ p last = true ∧ before.countP p + 1 = count := by
  induction l generalizing count with
  | nil => exact absurd (pos.trans enough) (by simp)
  | cons first l ih =>
    by_cases kind : p first = true
    · rw [List.countP_cons_of_pos kind] at enough
      rcases Nat.lt_or_eq_of_le pos with more | rfl
      · obtain ⟨before, last, front, hlast, size⟩ := @ih (count - 1) (by omega) (by omega)
        refine ⟨first :: before, last, List.cons_prefix_cons.mpr ⟨rfl, front⟩, hlast, ?_⟩
        rw [List.countP_cons_of_pos kind]
        omega
      · exact ⟨[], first, List.cons_prefix_cons.mpr ⟨rfl, List.nil_prefix⟩, kind, rfl⟩
    · rw [List.countP_cons_of_neg kind] at enough
      obtain ⟨before, last, front, hlast, size⟩ := ih pos enough
      refine ⟨first :: before, last, List.cons_prefix_cons.mpr ⟨rfl, front⟩, hlast, ?_⟩
      rwa [List.countP_cons_of_neg kind]

theorem Gives.of_append {σ : Type} [DiceSource σ] {source after : σ} {first later : List Throw}
    (h : Gives source (first ++ later) after) : ∃ between, Gives source first between := by
  induction first generalizing source with
  | nil => exact ⟨source, .nil source⟩
  | cons throw first ih =>
    cases h with
    | cons given rest =>
      obtain ⟨between, gives⟩ := ih rest
      exact ⟨between, .cons given gives⟩

/-- Faces that complete a pool of so many dice: the last of them is a miss, and before it there
is one miss fewer than there are dice. -/
def Completes (threshold count : Int) (faces : List Int) : Prop :=
  ∃ before miss, faces = before ++ [miss] ∧ miss < threshold ∧
    before.countP (· < threshold) + 1 = count

section Completing

variable {threshold threshold' count count' : Int} {faces : List Int}

theorem Completes.misses (h : Completes threshold count faces) :
    (faces.countP (· < threshold) : Int) = count := by
  obtain ⟨before, miss, rfl, under, last⟩ := h
  rw [List.countP_append, List.countP_singleton, if_pos (decide_eq_true under)]
  exact_mod_cast last

/-- The faces of a completed pool begin with those of one that is easier to complete. -/
theorem Completes.exists_earlier (h : Completes threshold count faces) (one : 1 ≤ count')
    (fewer : count' ≤ count) (higher : threshold ≤ threshold') :
    ∃ earlier, earlier <+: faces ∧ Completes threshold' count' earlier := by
  have closed := h.misses
  have more : faces.countP (· < threshold) ≤ faces.countP (· < threshold') := by
    apply List.countP_mono_left
    intro face _
    simp only [decide_eq_true_eq]
    omega
  obtain ⟨before, miss, front, under, size⟩ : ∃ before miss, before ++ [miss] <+: faces ∧
      decide (miss < threshold') = true ∧ before.countP (· < threshold') + 1 = count'.toNat :=
    exists_closing_prefix (by omega) (by omega)
  exact ⟨before ++ [miss], front, before, miss, rfl, of_decide_eq_true under, by omega⟩

theorem hits_le {earlier : List Int} (front : earlier <+: faces) (higher : threshold ≤ threshold') :
    hits threshold' earlier ≤ hits threshold faces := by
  apply front.countP_le.trans
  apply List.countP_mono_left
  intro face _
  simp only [isHit_eq_true_iff]
  exact higher.trans

end Completing

section Pools

variable {ε : Type} {die : Die} {threshold : Int} {faces : List Int} {budget : Nat}
  (few : faces.length ≤ budget)

include few

/-- The faces of a completed pool are a course of it. -/
theorem course_reroll_of_completes {pending : Int} (h : Completes threshold pending faces)
    (drawn : List Int) : (reroll (ε := ε) die threshold budget pending drawn).Course
      (throwsOf die faces) (.ok (some (drawn.reverse ++ faces))) := by
  obtain ⟨before, miss, rfl, under, last⟩ := h
  rw [List.length_append, List.length_singleton] at few
  have started : pending ≠ 0 := by omega
  obtain ⟨budget, rfl⟩ := Nat.exists_eq_add_of_le' (Nat.one_le_of_lt few)
  induction before generalizing budget pending drawn with
  | nil =>
    have closes := (isHit_eq_false_iff threshold).mpr under
    have one : pending = 1 := by simpa using last.symm
    rw [reroll, if_neg started]
    refine .draw ?_
    rw [closes, if_neg Bool.false_ne_true, one, Int.sub_self, reroll_pending_zero,
      List.reverse_cons]
    exact .done _
  | cons face before ih =>
    rw [misses_cons] at last
    have more : before.countP (· < threshold) + 1 =
        if isHit threshold face then pending else pending - 1 := by
      split_ifs at last ⊢ <;> omega
    obtain ⟨rest, rfl⟩ := Nat.exists_eq_add_of_le' (Nat.lt_of_succ_lt_succ few)
    have later := ih (face :: drawn) more (by omega) _ (Nat.lt_of_succ_lt_succ few)
    rw [List.reverse_cons, List.append_assoc] at later
    rw [reroll, if_neg started]
    exact .draw later

theorem course_explode_of_completes {count : Nat} (h : Completes threshold count faces) :
    (explode (ε := ε) die threshold budget count [] []).Course (throwsOf die faces)
      (.ok (some (chainsFrom threshold [] faces))) := by
  have order : ([] : List Int).reverse = ([] : List (List Int)).reverse.flatten ++ [].reverse := rfl
  have rolled : (reroll (ε := ε) die threshold budget count []).Course (throwsOf die faces)
      (.ok (some faces)) := course_reroll_of_completes few h []
  rw [explode_eq_reroll die threshold budget count order (by simp) (by simp) fun _ => rfl,
    ← Roll.bind_eq, ← List.append_nil (throwsOf _ _)]
  exact rolled.bind (.done _)

end Pools

namespace Expression

section Completing

variable {e : Expression} {threshold cap : Int} {text : String}
  (kind : e.expansion? = some threshold)

include kind

theorem course_of_completes {faces : List Int} (h : Completes threshold e.count faces)
    (few : faces.length ≤ cap.toNat) :
    (e.roll text cap).Course (throwsOf e.die faces) (.ok (e.tallyOf faces)) := by
  have within : e.count ≤ cap := by
    have misses := h.misses
    have most : faces.countP (· < threshold) ≤ faces.length := List.countP_le_length
    obtain ⟨before, miss, rfl, -, last⟩ := h
    rw [List.length_append, List.length_singleton] at few most
    omega
  rw [← List.append_nil (throwsOf _ _)]
  match hm : e.modifier with
  | some (.count .exploding threshold) =>
    obtain rfl : threshold = _ := by simpa [expansion?, hm] using kind
    have whole : (e.count.toNat : Int) = e.count := by
      have misses := h.misses
      omega
    simp only [roll, tallyOf, hm, expanding, if_neg (Int.not_lt.mpr within)]
    exact (course_explode_of_completes few (whole.symm ▸ h)).bind (.done _)
  | some (.count .reroll threshold) =>
    obtain rfl : threshold = _ := by simpa [expansion?, hm] using kind
    simp only [roll, tallyOf, hm, expanding, if_neg (Int.not_lt.mpr within)]
    exact (course_reroll_of_completes few h []).bind (.done _)
  | none | some (.select _ _) | some (.count .versus _) => simp [expansion?, hm] at kind

variable {σ : Type} [DiceSource σ] {tray : Tray σ}

/-- All that the cap has to do with a completed pool is that its faces are no more than that. -/
theorem run_of_completes (text : String) {faces : List Int} {after : σ}
    (h : Completes threshold e.count faces) (few : faces.length ≤ cap.toNat)
    (given : Gives tray.source (throwsOf e.die faces) after) :
    ((e.roll text cap).run tray).ending = .finished (e.tallyOf faces) ∧
      ((e.roll text cap).run tray).tray = ⟨after, tray.drawn + faces.length⟩ := by
  obtain ⟨journal, run⟩ := (course_of_completes kind h few).run_eq given
  rw [run, throwsOf, List.length_map]
  exact ⟨rfl, rfl⟩

theorem completes_of_finished (pos : 1 ≤ e.count) {tally : Tally}
    (ended : ((e.roll text cap).run tray).ending = .finished tally) :
    ∃ faces, Completes threshold e.count faces ∧ faces.length ≤ cap.toNat ∧
      tally = e.tallyOf faces ∧
      Gives tray.source (throwsOf e.die faces) ((e.roll text cap).run tray).tray.source := by
  obtain ⟨throws, course, given⟩ := Roll.exists_course_of_finished ended
  obtain ⟨faces, made, rfl, draws, same⟩ := draws_of_course pos course
  obtain rfl : made = some tally := by cases made <;> cases same; rfl
  cases draws with
  | once plain size => simp [plain] at kind
  | expanded kind' within expands =>
    obtain rfl := Option.some.inj (kind'.symm.trans kind)
    cases expands with
    | @completed before miss few under last =>
      refine ⟨_, ⟨before, miss, rfl, under, last⟩, ?_, rfl, given⟩
      rw [List.length_append, List.length_singleton]
      exact few

end Completing

section Easing

variable {σ : Type} [DiceSource σ] {rule : Counting} {count count' threshold threshold' : Int}

/-- With fewer dice, a higher threshold and a wider cap, a pool that did not overflow does not
overflow either. It draws no more dice than before, and a rerolling one counts no more hits. The
cap alone makes no difference to a pool that does not overflow. -/
theorem roll_eased (expands : rule ≠ .versus) {cap cap' : Int} (one : 1 ≤ count')
    (fewer : count' ≤ count) (higher : threshold ≤ threshold') (wider : cap ≤ cap') (die : Die)
    (constant : Option Int) (text text' : String) (tray : Tray σ) (tally : Tally) :
    let e : Expression := ⟨count, die, some (.count rule threshold), constant⟩
    let eased : Expression := ⟨count', die, some (.count rule threshold'), constant⟩
    let played := (e.roll text cap).run tray
    let again := (eased.roll text' cap').run tray
    played.ending = .finished tally →
    ∃ tally', again.ending = .finished tally' ∧ again.tray.drawn ≤ played.tray.drawn ∧
      (rule = .reroll → tally'.total ≤ tally.total) ∧
      (count' = count → threshold' = threshold → tally' = tally ∧ again.tray = played.tray) := by
  intro e eased played again ended
  have kind : e.expansion? = some threshold ∧ eased.expansion? = some threshold' := by
    cases rule with
    | versus => exact absurd rfl expands
    | exploding => exact ⟨rfl, rfl⟩
    | reroll => exact ⟨rfl, rfl⟩
  obtain ⟨faces, completes, few, rfl, given⟩ := completes_of_finished kind.1 (one.trans fewer) ended
  obtain ⟨-, left⟩ := run_of_completes kind.1 text completes few given
  have caps : cap.toNat ≤ cap'.toNat := Int.toNat_le_toNat wider
  obtain ⟨earlier, front, completes'⟩ := completes.exists_earlier one fewer higher
  have shorter : earlier.length ≤ faces.length := front.length_le
  obtain ⟨between, given'⟩ : ∃ between, Gives tray.source (throwsOf die earlier) between := by
    obtain ⟨rest, rfl⟩ := front
    rw [throwsOf, List.map_append] at given
    exact given.of_append
  obtain ⟨ending', left'⟩ := run_of_completes kind.2 text' completes'
    (shorter.trans (few.trans caps)) given'
  refine ⟨eased.tallyOf earlier, ending', ?_, ?_, ?_⟩
  · rw [show again.tray = _ from left', show played.tray = _ from left]
    exact Nat.add_le_add_left shorter _
  · rintro rfl
    exact Int.add_le_add_right (Int.ofNat_le.mpr (hits_le front higher)) (constant.getD 0)
  · rintro rfl rfl
    obtain ⟨same, tray'⟩ := run_of_completes kind.1 text' completes (few.trans caps) given
    exact ⟨Ending.finished.inj (ending'.symm.trans same), tray'.trans left.symm⟩

theorem roll_eased_to_one_die :
    let tray := Script.tray [6, 5, 2, 5, 3, 1]
    let e : Expression := ⟨2, .numbered 6, some (.count .reroll 5), some 1⟩
    let eased : Expression := ⟨1, .numbered 6, some (.count .reroll 6), some 1⟩
    let played := (e.roll "2d6rv5+1" 5).run tray
    let again := (eased.roll "1d6rv6+1" 9).run tray
    Counting.reroll ≠ .versus ∧ (1 : Int) ≤ 1 ∧ (1 : Int) ≤ 2 ∧ (5 : Int) ≤ 6 ∧ (5 : Int) ≤ 9 ∧
      played.ending = .finished ⟨[2, 3, 5, 5, 6], [], 4⟩ ∧ played.tray.drawn = 5 ∧
      ∃ tally, again.ending = .finished tally ∧ again.tray.drawn ≤ 5 ∧ tally.total ≤ 4 := by
  intro tray e eased played again
  have expands : Counting.reroll ≠ .versus := by decide
  have one : (1 : Int) ≤ 1 := by decide
  have fewer : (1 : Int) ≤ 2 := by decide
  have higher : (5 : Int) ≤ 6 := by decide
  have wider : (5 : Int) ≤ 9 := by decide
  have completes : Completes 5 e.count [6, 5, 2, 5, 3] :=
    ⟨[6, 5, 2, 5], 3, rfl, by decide, by decide⟩
  have given : Gives tray.source (throwsOf e.die [6, 5, 2, 5, 3]) ⟨[1]⟩ := gives_script_iff.mpr rfl
  have few : [6, 5, 2, 5, 3].length ≤ (5 : Int).toNat := by decide
  obtain ⟨ending, left⟩ := run_of_completes rfl "2d6rv5+1" completes few given
  have sorted : ascending [6, 5, 2, 5, 3] = [2, 3, 5, 5, 6] :=
    ascending_eq_of_ordered (by decide) (by decide)
  have tally : e.tallyOf [6, 5, 2, 5, 3] = ⟨[2, 3, 5, 5, 6], [], 4⟩ :=
    congrArg (Tally.mk · [] 4) sorted
  have ended : played.ending = .finished ⟨[2, 3, 5, 5, 6], [], 4⟩ := tally ▸ ending
  have five : played.tray.drawn = 5 := congrArg Tray.drawn left
  obtain ⟨tally', ended', drawn, total, -⟩ := roll_eased expands one fewer higher wider
    (.numbered 6) (some 1) "2d6rv5+1" "1d6rv6+1" tray _ ended
  exact ⟨expands, one, fewer, higher, wider, ended, five, tally', ended', five ▸ drawn, total rfl⟩

end Easing

end Expression

end DiceRoller
