import DiceRoller.Proofs.Pool.Easing

/-!
# Sums of chains

An exploding pool shows the sum of each chain and counts the chains that were extended. Where
no face is below one the two agree: a chain that was extended adds up to more than the
threshold, and any other is a lone miss (`ClosedChain.extended_or_lone`). So the successes of a
roll can be counted among the numbers that it shows (`roll_exploding_shown`).
-/

namespace DiceRoller

namespace ClosedChain

variable {threshold : Int} {chain : List Int} (h : ClosedChain threshold chain)
  (positive : ∀ face ∈ chain, 1 ≤ face)

include h positive

theorem extended_or_lone : (1 < chain.length ∧ threshold < chain.sum) ∨
    ∃ face, chain = [face] ∧ face < threshold := by
  obtain ⟨hits, miss, rfl, above, under⟩ := h
  cases hits with
  | nil => exact Or.inr ⟨miss, rfl, under⟩
  | cons first hits =>
    -- The first hit reaches the threshold, no later one takes from it, and the miss adds one.
    have reaches := above first List.mem_cons_self
    have between : 0 ≤ hits.sum := by
      apply List.sum_nonneg
      intro face hface
      have one := positive face (by simp [hface])
      omega
    have last := positive miss (by simp)
    refine Or.inl ⟨by simp, ?_⟩
    rw [List.cons_append, List.sum_cons, List.sum_append, List.sum_singleton]
    omega

theorem isExtended_iff : isExtended chain = true ↔ threshold ≤ chain.sum := by
  rcases h.extended_or_lone positive with ⟨extended, more⟩ | ⟨face, rfl, under⟩
  · simp [isExtended, extended, more.le]
  · simp [isExtended, under]

end ClosedChain

/-- With faces below one a miss can take back what the hits before it brought. -/
example : isExtended [1, -1] = true ∧ [1, -1].sum < 1 := by decide

namespace IsCut

variable {threshold : Int} {faces : List Int} {chains : List (List Int)}
  (h : IsCut threshold faces chains) (positive : ∀ face ∈ faces, 1 ≤ face)

include h positive

theorem one_le_of_mem {chain : List Int} (hchain : chain ∈ chains) :
    ∀ face ∈ chain, 1 ≤ face := by
  intro face hface
  apply positive
  rw [← h.1]
  exact List.mem_flatten_of_mem hchain hface

theorem countP_isExtended_eq :
    chains.countP isExtended = (ascending (chains.map List.sum)).countP (threshold ≤ ·) := by
  rw [(ascending_perm _).countP_eq, List.countP_map]
  apply List.countP_congr
  intro chain hchain
  simpa using (h.2 chain hchain).isExtended_iff (h.one_le_of_mem positive hchain)

theorem lt_of_mem_ascending {shown : Int} (hshown : shown ∈ ascending (chains.map List.sum))
    (reaches : threshold ≤ shown) : threshold < shown := by
  obtain ⟨chain, hchain, rfl⟩ := List.mem_map.mp ((ascending_perm _).mem_iff.mp hshown)
  rcases (h.2 chain hchain).extended_or_lone (h.one_le_of_mem positive hchain) with
    ⟨-, more⟩ | ⟨face, rfl, under⟩
  · exact more
  · rw [List.sum_singleton] at reaches
    omega

end IsCut

namespace Expression

section Showing

variable {σ : Type} [DiceSource σ]

/-- On a source of faces that are one or more, an exploding roll that comes to its end has as many
successes as numbers shown that reach the threshold. Each of these is more than the threshold and
belongs to an extended chain, and every other number shown is one face that is a miss. -/
theorem roll_exploding_shown {count : Int} (pos : 1 ≤ count) (sides threshold : Int)
    (constant : Option Int) (text : String) (cap : Int) (tray : Tray σ)
    (positive : ∀ (faces : List Int) (after : σ),
      Gives tray.source (throwsOf (.numbered sides) faces) after → ∀ face ∈ faces, 1 ≤ face)
    (tally : Tally) :
    let e : Expression := ⟨count, .numbered sides, some (.count .exploding threshold), constant⟩
    let played := (e.roll text cap).run tray
    played.ending = .finished tally →
      tally.total - constant.getD 0 = tally.rolls.countP (threshold ≤ ·) ∧
      (∀ shown ∈ tally.rolls, threshold ≤ shown → threshold < shown) ∧
      ∃ faces chains, Gives tray.source (throwsOf (.numbered sides) faces) played.tray.source ∧
        IsCut threshold faces chains ∧ tally.rolls = ascending (chains.map List.sum) ∧
        ∀ chain ∈ chains, (1 < chain.length ∧ threshold < chain.sum) ∨
          ∃ face, chain = [face] ∧ face < threshold := by
  intro e played ended
  obtain ⟨faces, completes, -, made, given⟩ := completes_of_finished (e := e) rfl pos ended
  obtain ⟨before, miss, rfl, under, -⟩ := completes
  let chains := chainsFrom threshold [] (before ++ [miss])
  have cut : IsCut threshold (before ++ [miss]) chains := isCut_chainsFrom before under
  have ones := positive _ _ given
  have rolls : tally.rolls = ascending (chains.map List.sum) := congrArg Tally.rolls made
  have total : tally.total = chains.countP isExtended + constant.getD 0 :=
    congrArg Tally.total made
  rw [rolls, total]
  refine ⟨?_, ?_, _, chains, given, cut, rfl, ?_⟩
  · rw [cut.countP_isExtended_eq ones, Int.add_sub_cancel]
  · exact fun shown hshown => cut.lt_of_mem_ascending ones hshown
  · intro chain hchain
    exact (cut.2 chain hchain).extended_or_lone (cut.one_le_of_mem ones hchain)

theorem roll_exploding_shown_chain_of_twenty :
    let e : Expression := ⟨3, .numbered 10, some (.count .exploding 8), some 1⟩
    let tray := Script.tray [9, 8, 3, 2, 5]
    (1 : Int) ≤ 3 ∧
      (∀ (faces : List Int) (after : Script),
        Gives tray.source (throwsOf (.numbered 10) faces) after → ∀ face ∈ faces, 1 ≤ face) ∧
      ((e.roll "3d10ev8+1" 100).run tray).ending = .finished ⟨[2, 5, 20], [], 2⟩ ∧
      (2 - 1 : Int) = [2, 5, 20].countP ((8 : Int) ≤ ·) ∧
      ∀ shown ∈ ([2, 5, 20] : List Int), 8 ≤ shown → 8 < shown := by
  intro e tray
  have pos : (1 : Int) ≤ 3 := by decide
  have positive : ∀ (faces : List Int) (after : Script),
      Gives tray.source (throwsOf (.numbered 10) faces) after → ∀ face ∈ faces, 1 ≤ face := by
    rintro faces ⟨rest⟩ given face hface
    have script : [9, 8, 3, 2, 5] = faces ++ rest := by
      simpa [throwsOf, Function.comp_def] using gives_script_iff.mp given
    have ones : ∀ face ∈ ([9, 8, 3, 2, 5] : List Int), 1 ≤ face := by decide
    exact ones face (script ▸ List.mem_append_left rest hface)
  have completes : Completes 8 e.count [9, 8, 3, 2, 5] :=
    ⟨[9, 8, 3, 2], 5, rfl, by decide, by decide⟩
  have given : Gives tray.source (throwsOf e.die [9, 8, 3, 2, 5]) ⟨[]⟩ := gives_script_iff.mpr rfl
  have sorted : ascending [20, 2, 5] = [2, 5, 20] :=
    ascending_eq_of_ordered (by decide) (by decide)
  have made : e.tallyOf [9, 8, 3, 2, 5] = ⟨[2, 5, 20], [], 2⟩ :=
    congrArg (Tally.mk · [] 2) sorted
  have few : ([9, 8, 3, 2, 5] : List Int).length ≤ (100 : Int).toNat := by decide
  have ended := (run_of_completes (e := e) rfl "3d10ev8+1" completes few given).1
  rw [made] at ended
  obtain ⟨total, above, -⟩ := roll_exploding_shown pos 10 8 (some 1) "3d10ev8+1" 100 tray positive
    _ ended
  exact ⟨pos, positive, ended, total, above⟩

end Showing

end Expression

end DiceRoller
