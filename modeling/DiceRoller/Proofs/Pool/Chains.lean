import DiceRoller.Proofs.Pool.Stopping
import Mathlib.Tactic.SplitIfs

/-!
# Chains of an exploding pool

Faces that end with a miss fall in one way only into chains, each of them hits closed by a
miss. An exploding pool draws like a rerolling one and then cuts its faces into chains
(`explode_eq_reroll`), so that all that is known of where the one stops holds of the other.
-/

namespace DiceRoller

/-- The faces of one exploding die. -/
def ClosedChain (threshold : Int) (chain : List Int) : Prop :=
  ∃ hits miss, chain = hits ++ [miss] ∧ (∀ face ∈ hits, threshold ≤ face) ∧ miss < threshold

/-- Cuts faces after every miss. The hits since the last miss are given. -/
def chainsFrom (threshold : Int) (chain : List Int) : List Int → List (List Int)
  | [] => []
  | face :: faces =>
    if isHit threshold face then chainsFrom threshold (chain ++ [face]) faces
    else (chain ++ [face]) :: chainsFrom threshold [] faces

section Cutting

variable {threshold : Int}

theorem closedChain_of_mem_chainsFrom {chain faces c : List Int}
    (hits : ∀ face ∈ chain, threshold ≤ face) (h : c ∈ chainsFrom threshold chain faces) :
    ClosedChain threshold c := by
  induction faces generalizing chain with
  | nil => simp [chainsFrom] at h
  | cons face faces ih =>
    unfold chainsFrom at h
    by_cases hit : isHit threshold face = true
    · rw [if_pos hit] at h
      apply ih ?_ h
      intro x hx
      rcases List.mem_append.mp hx with hx | hx
      · exact hits x hx
      · exact List.mem_singleton.mp hx ▸ (isHit_eq_true_iff threshold).mp hit
    · rw [if_neg hit] at h
      rcases List.mem_cons.mp h with rfl | h
      · exact ⟨chain, face, rfl, hits,
          (isHit_eq_false_iff threshold).mp (Bool.eq_false_iff.mpr hit)⟩
      · exact ih (by simp) h

theorem length_chainsFrom (chain faces : List Int) :
    (chainsFrom threshold chain faces).length = faces.countP (· < threshold) := by
  induction faces generalizing chain with
  | nil => rfl
  | cons face faces ih =>
    unfold chainsFrom
    by_cases hit : isHit threshold face = true
    · have above := (isHit_eq_true_iff threshold).mp hit
      rw [if_pos hit, ih, List.countP_cons_of_neg (by simpa using above)]
    · have under := (isHit_eq_false_iff threshold).mp (Bool.eq_false_iff.mpr hit)
      rw [if_neg hit, List.length_cons, ih, List.countP_cons_of_pos (by simpa using under)]

theorem flatten_chainsFrom (chain faces : List Int) {miss : Int} (h : miss < threshold) :
    (chainsFrom threshold chain (faces ++ [miss])).flatten = chain ++ faces ++ [miss] := by
  have last : isHit threshold miss = false := (isHit_eq_false_iff threshold).mpr h
  induction faces generalizing chain with
  | nil => simp [chainsFrom, last]
  | cons face faces ih =>
    rw [List.cons_append, chainsFrom]
    by_cases hit : isHit threshold face = true
    · rw [if_pos hit, ih]
      simp
    · rw [if_neg hit, List.flatten_cons, ih]
      simp

theorem chainsFrom_append (chain : List Int) {hits : List Int} (rest : List Int)
    (h : ∀ face ∈ hits, threshold ≤ face) :
    chainsFrom threshold chain (hits ++ rest) = chainsFrom threshold (chain ++ hits) rest := by
  induction hits generalizing chain with
  | nil => rw [List.nil_append, List.append_nil]
  | cons face hits ih =>
    have hit := (isHit_eq_true_iff threshold).mpr (h face List.mem_cons_self)
    rw [List.cons_append, chainsFrom, if_pos hit,
      ih _ fun x hx => h x (List.mem_cons_of_mem _ hx), List.append_assoc,
      List.singleton_append]

theorem chainsFrom_flatten_append {chains : List (List Int)} (rest : List Int)
    (h : ∀ chain ∈ chains, ClosedChain threshold chain) :
    chainsFrom threshold [] (chains.flatten ++ rest) =
      chains ++ chainsFrom threshold [] rest := by
  induction chains with
  | nil => rfl
  | cons chain chains ih =>
    obtain ⟨hits, miss, rfl, above, under⟩ := h chain List.mem_cons_self
    have last := (isHit_eq_false_iff threshold).mpr under
    have later := ih fun c hc => h c (List.mem_cons_of_mem _ hc)
    rw [List.flatten_cons, List.append_assoc, List.append_assoc, chainsFrom_append [] _ above,
      List.singleton_append, chainsFrom, last, later]
    rfl

/-- Chains can be recovered from their faces. -/
theorem chainsFrom_flatten {chains : List (List Int)}
    (h : ∀ chain ∈ chains, ClosedChain threshold chain) :
    chainsFrom threshold [] chains.flatten = chains := by
  have cut := chainsFrom_flatten_append [] h
  rwa [List.append_nil, chainsFrom, List.append_nil] at cut

end Cutting

/-- The chains are the faces, cut after every miss. -/
def IsCut (threshold : Int) (faces : List Int) (chains : List (List Int)) : Prop :=
  chains.flatten = faces ∧ ∀ chain ∈ chains, ClosedChain threshold chain

section Counting

variable {threshold : Int} {faces : List Int} {chains : List (List Int)}

theorem IsCut.eq_chainsFrom (h : IsCut threshold faces chains) : chains = chainsFrom threshold [] faces :=
  h.1 ▸ (chainsFrom_flatten h.2).symm

theorem isCut_chainsFrom (before : List Int) {miss : Int} (h : miss < threshold) :
    IsCut threshold (before ++ [miss]) (chainsFrom threshold [] (before ++ [miss])) :=
  ⟨flatten_chainsFrom [] before h, fun _ => closedChain_of_mem_chainsFrom (by simp)⟩

theorem ClosedChain.ne_nil {chain : List Int} (h : ClosedChain threshold chain) : chain ≠ [] := by
  obtain ⟨hits, miss, rfl, -⟩ := h
  simp

/-- A chain that was extended has a face more than its die at least. -/
theorem countP_isExtended_add_length_le (h : ∀ chain ∈ chains, chain ≠ []) :
    chains.countP isExtended + chains.length ≤ chains.flatten.length := by
  induction chains with
  | nil => simp
  | cons chain chains ih =>
    have rest := ih fun c hc => h c (List.mem_cons_of_mem _ hc)
    have one := List.length_pos_iff.mpr (h chain List.mem_cons_self)
    rw [List.length_cons, List.flatten_cons, List.length_append]
    by_cases extended : isExtended chain = true
    · have two : 1 < chain.length := by simpa [isExtended] using extended
      rw [List.countP_cons_of_pos extended]
      omega
    · rw [List.countP_cons_of_neg extended]
      omega

theorem hits_add_misses (threshold : Int) (faces : List Int) :
    hits threshold faces + faces.countP (· < threshold) = faces.length := by
  rw [List.length_eq_countP_add_countP (isHit threshold), hits]
  congr 2
  funext face
  simp [isHit]

theorem IsCut.length_eq (h : IsCut threshold faces chains) :
    chains.length = faces.countP (· < threshold) := by
  rw [h.eq_chainsFrom, length_chainsFrom]

/-- Each extended chain has a hit of its own. -/
theorem IsCut.countP_isExtended_le (h : IsCut threshold faces chains) :
    chains.countP isExtended ≤ hits threshold faces := by
  have extended := countP_isExtended_add_length_le fun c hc => (h.2 c hc).ne_nil
  have both := hits_add_misses threshold faces
  rw [h.1, h.length_eq] at extended
  omega

end Counting

theorem explode_pending_zero {ε : Type} (die : Die) (threshold : Int) (budget : Nat)
    (chain : List Int) (closed : List (List Int)) :
    explode (ε := ε) die threshold budget 0 chain closed = .done (.ok (some closed.reverse)) := by
  cases budget <;> rfl

/-- Once its last die is closed, an exploding pool has the chains of the faces drawn. -/
theorem explode_eq_reroll_of_closed {ε : Type} (die : Die) {threshold : Int} (budget : Nat)
    {drawn : List Int} {closed : List (List Int)} (order : drawn.reverse = closed.reverse.flatten)
    (shut : ∀ c ∈ closed, ClosedChain threshold c) :
    explode (ε := ε) die threshold budget 0 [] closed =
      (reroll die threshold budget 0 drawn).bind fun rolled =>
        .done (.ok (rolled.map (chainsFrom threshold []))) := by
  have whole := chainsFrom_flatten fun c hc => shut c (List.mem_reverse.mp hc)
  rw [explode_pending_zero, reroll_pending_zero, Roll.bind, order, Option.map_some, whole]

/-- An exploding pool with the chains `closed` and `chain` behind it draws as a rerolling pool
does with the same faces behind it, and ends with the chains of what that one ends with. -/
theorem explode_eq_reroll {ε : Type} (die : Die) (threshold : Int) (budget pending : Nat)
    {chain drawn : List Int} {closed : List (List Int)}
    (order : drawn.reverse = closed.reverse.flatten ++ chain.reverse)
    (shut : ∀ c ∈ closed, ClosedChain threshold c) (hits : ∀ face ∈ chain, threshold ≤ face)
    (idle : pending = 0 → chain = []) :
    explode (ε := ε) die threshold budget pending chain closed =
      (reroll die threshold budget pending drawn).bind fun rolled =>
        .done (.ok (rolled.map (chainsFrom threshold []))) := by
  induction budget generalizing pending chain drawn closed with
  | zero =>
    cases pending with
    | zero =>
      rw [idle rfl, List.reverse_nil, List.append_nil] at order
      exact idle rfl ▸ explode_eq_reroll_of_closed die 0 order shut
    | succ pending =>
      have pos : ((pending + 1 : Nat) : Int) ≠ 0 := by omega
      rw [explode, reroll, if_neg pos]
      rfl
  | succ budget ih =>
    cases pending with
    | zero =>
      rw [idle rfl, List.reverse_nil, List.append_nil] at order
      exact idle rfl ▸ explode_eq_reroll_of_closed die (budget + 1) order shut
    | succ pending =>
      have pos : ((pending + 1 : Nat) : Int) ≠ 0 := by omega
      rw [explode, reroll, if_neg pos, Roll.bind]
      congr 1
      funext face
      by_cases hit : isHit threshold face = true
      · rw [if_pos hit, if_pos hit]
        refine ih (pending + 1) ?_ shut ?_ (absurd · (Nat.succ_ne_zero pending))
        · rw [List.reverse_cons, List.reverse_cons, order, List.append_assoc]
        · intro x hx
          rcases List.mem_cons.mp hx with rfl | hx
          · exact (isHit_eq_true_iff threshold).mp hit
          · exact hits x hx
      · have miss := (isHit_eq_false_iff threshold).mp (Bool.eq_false_iff.mpr hit)
        have less : ((pending + 1 : Nat) : Int) - 1 = pending := by omega
        rw [if_neg hit, if_neg hit, less]
        refine ih pending ?_ ?_ (by simp) (fun _ => rfl)
        · simp [order]
        · intro c hc
          rcases List.mem_cons.mp hc with rfl | hc
          · exact ⟨chain.reverse, face, List.reverse_cons, by simpa using hits, miss⟩
          · exact shut c hc

theorem Supply.stops_explode {σ ε : Type} [DiceSource σ] {die : Die} (supply : Supply σ die)
    (threshold : Int) (budget : Nat) {count : Nat} (pos : 1 ≤ count) :
    supply.Stops threshold budget count (explode (ε := ε) die threshold budget count [] [])
      (chainsFrom threshold []) := by
  intro before
  have order : ([] : List Int).reverse = ([] : List (List Int)).reverse.flatten ++ [].reverse := rfl
  have same := explode_eq_reroll (ε := ε) die threshold budget count order (by simp) (by simp)
    (fun _ => rfl)
  rw [same, Roll.run_bind, supply.stops_reroll threshold budget pos before]
  split_ifs <;> rfl

end DiceRoller
