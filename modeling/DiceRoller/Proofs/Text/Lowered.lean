import DiceRoller.Proofs.Text.Lowering
import DiceRoller.Proofs.Text.Trimming

/-!
# Lowered texts

An image of the case tables is in no run of them, is no blank and is neither of the two
capitals that are lowered by a rule of their own. So lowering a second time changes nothing
(`lower_lower`), and a text without outer blanks has none after it is lowered
(`trim_lower`).
-/

namespace DiceRoller.Text

namespace CaseRun

def lastImage (run : CaseRun) : Nat := run.image + (run.last - run.first)

/-- No image of the run is in the range. -/
def avoids (run : CaseRun) (range : Nat × Nat) : Bool :=
  Nat.blt run.lastImage range.1 || Nat.blt range.2 run.image

/-- No image of the run is lowered by the other one, because it lies outside of it or between
two of its characters. -/
def apart (run other : CaseRun) : Bool :=
  run.avoids (other.first, other.last) ||
    other.step == 2 && (run.step == 2 || run.first == run.last) &&
      (run.image + other.first) % 2 == 1

section Images

variable {run : CaseRun} {code image : Nat} (h : run.lower? code = some image)

include h

theorem image_mem : run.image ≤ image ∧ image ≤ run.lastImage := by
  obtain ⟨start, stop, -, rfl⟩ := lower?_eq_some h
  unfold lastImage
  omega

theorem not_mem_of_avoids {range : Nat × Nat} (free : run.avoids range = true) :
    ¬ (range.1 ≤ image ∧ image ≤ range.2) := by
  have inside := image_mem h
  simp only [avoids, Bool.or_eq_true, Nat.blt_eq] at free
  omega

theorem lower?_eq_none_of_apart {other : CaseRun} (free : run.apart other = true) :
    other.lower? image = none := by
  obtain ⟨start, stop, steps, eq⟩ := lower?_eq_some h
  unfold apart at free
  rcases Bool.or_eq_true_iff.mp free with outside | between
  · have out := not_mem_of_avoids h outside
    rw [lower?, if_neg]
    simp only [Bool.and_eq_true, decide_eq_true_eq, not_and]
    exact fun inside => absurd inside out
  · simp only [Bool.and_eq_true, Bool.or_eq_true, beq_iff_eq] at between
    obtain ⟨⟨two, kind⟩, odd⟩ := between
    have distance : (code - run.first) % 2 = 0 := by
      rcases kind with same | single
      · rwa [same] at steps
      · omega
    rw [lower?, two, if_neg]
    simp only [Bool.and_eq_true, decide_eq_true_eq, beq_iff_eq, not_and]
    omega

end Images

end CaseRun

/-- What no image may be: the two capitals with a rule of their own, no character at all, or
a blank. -/
def barredRanges : Ranges := (0x130, 0x130) :: (0x3A3, 0x3A3) :: (0xD800, 0xDFFF) :: blankRanges

theorem avoids_of_mem_lowerRuns {run : CaseRun} (h : run ∈ lowerRuns) :
    run.lastImage < 0x110000 ∧ ∀ range ∈ barredRanges, run.avoids range = true := by
  have all : (lowerRuns.all fun run =>
      Nat.blt run.lastImage 0x110000 && barredRanges.all run.avoids) = true := by decide +kernel
  simpa using List.all_eq_true.mp all run h

theorem apart_of_mem_lowerRuns {run other : CaseRun} (h : run ∈ lowerRuns)
    (hother : other ∈ lowerRuns) : run.apart other = true := by
  have all : (lowerRuns.all fun run => lowerRuns.all run.apart) = true := by decide +kernel
  exact List.all_eq_true.mp (List.all_eq_true.mp all run h) other hother

/-- Lowering leaves the character as it is, wherever it stands. -/
structure IsLowered (c : Char) : Prop where
  ne_sigma : c ≠ 'Σ'
  ne_dotted : c ≠ 'İ'
  lowerChar_eq : lowerChar c = c

section Image

variable {run : CaseRun} {code image : Nat} (mem : run ∈ lowerRuns)
  (h : run.lower? code = some image)

include mem h

theorem toNat_ofNat_image : (Char.ofNat image).toNat = image := by
  have inside := CaseRun.image_mem h
  obtain ⟨small, free⟩ := avoids_of_mem_lowerRuns mem
  have scalar := CaseRun.not_mem_of_avoids h (free (0xD800, 0xDFFF) (by decide))
  have valid : image.isValidChar := by
    unfold Nat.isValidChar
    omega
  rw [Char.ofNat, dif_pos valid]
  rfl

theorem isBlank_ofNat_image : isBlank (Char.ofNat image) = false := by
  have code := toNat_ofNat_image mem h
  rw [isBlank, Bool.eq_false_iff, ne_eq, Ranges.holds_eq_true_iff, code]
  rintro ⟨range, blank, inside⟩
  have barred : range ∈ barredRanges := by simp [barredRanges, blank]
  exact CaseRun.not_mem_of_avoids h ((avoids_of_mem_lowerRuns mem).2 range barred) inside

theorem isLowered_ofNat_image : IsLowered (Char.ofNat image) where
  ne_sigma := by
    intro sigma
    have code := toNat_ofNat_image mem h
    rw [sigma] at code
    have free := (avoids_of_mem_lowerRuns mem).2 (0x3A3, 0x3A3) (by decide)
    exact CaseRun.not_mem_of_avoids h free (code ▸ by decide)
  ne_dotted := by
    intro dotted
    have code := toNat_ofNat_image mem h
    rw [dotted] at code
    have free := (avoids_of_mem_lowerRuns mem).2 (0x130, 0x130) (by decide)
    exact CaseRun.not_mem_of_avoids h free (code ▸ by decide)
  lowerChar_eq := by
    have none : lowerRuns.findSome? (·.lower? image) = none := by
      apply List.findSome?_eq_none_iff.mpr
      intro other hother
      exact CaseRun.lower?_eq_none_of_apart h (apart_of_mem_lowerRuns mem hother)
    rw [lowerChar, toNat_ofNat_image mem h, none]

end Image

theorem isLowered_lowerChar {c : Char} (sigma : c ≠ 'Σ') (dotted : c ≠ 'İ') :
    IsLowered (lowerChar c) := by
  rcases lowerChar_eq_self_or c with same | ⟨run, mem, image, lowered, eq⟩
  · rw [same]
    exact ⟨sigma, dotted, same⟩
  · rw [eq]
    exact isLowered_ofNat_image mem lowered

theorem eq_of_isBlank_lowerChar {c : Char} (h : isBlank (lowerChar c) = true) :
    lowerChar c = c := by
  rcases lowerChar_eq_self_or c with same | ⟨run, mem, image, lowered, eq⟩
  · exact same
  · rw [eq, isBlank_ofNat_image mem lowered] at h
    cases h

theorem isLowered_of_mem_lowerImage {afterLetter : Bool} {c x : Char} {rest : List Char}
    (h : x ∈ lowerImage afterLetter c rest) : IsLowered x := by
  unfold lowerImage at h
  split_ifs at h with sigma ending dotted
  · rw [List.mem_singleton.mp h]
    exact ⟨by decide, by decide, by decide +kernel⟩
  · rw [List.mem_singleton.mp h]
    exact ⟨by decide, by decide, by decide +kernel⟩
  · rcases List.mem_pair.mp h with rfl | rfl
    · exact ⟨by decide, by decide, by decide +kernel⟩
    · exact ⟨by decide, by decide, by decide +kernel⟩
  · rw [List.mem_singleton.mp h]
    exact isLowered_lowerChar sigma dotted

/-- A blank is the image of itself alone. -/
theorem eq_of_mem_lowerImage {afterLetter : Bool} {c x : Char} {rest : List Char}
    (blank : isBlank x = true) (h : x ∈ lowerImage afterLetter c rest) : x = c := by
  unfold lowerImage at h
  split_ifs at h
  · rw [List.mem_singleton.mp h] at blank
    exact absurd blank (by decide)
  · rw [List.mem_singleton.mp h] at blank
    exact absurd blank (by decide)
  · rcases List.mem_pair.mp h with rfl | rfl <;> exact absurd blank (by decide)
  · obtain rfl := List.mem_singleton.mp h
    exact eq_of_isBlank_lowerChar blank

theorem isBlank_of_mem_lowerImage {afterLetter : Bool} {c x : Char} {rest : List Char}
    (blank : isBlank c = false) (h : x ∈ lowerImage afterLetter c rest) : isBlank x = false := by
  cases other : isBlank x with
  | false => rfl
  | true =>
    rw [eq_of_mem_lowerImage other h, blank] at other
    cases other

theorem mem_of_mem_lowerFrom {afterLetter : Bool} {s : List Char} {x : Char}
    (blank : isBlank x = true) (h : x ∈ lowerFrom afterLetter s) : x ∈ s := by
  induction s generalizing afterLetter with
  | nil => exact h
  | cons c s ih =>
    rw [lowerFrom_cons, List.mem_append] at h
    rcases h with image | later
    · rw [eq_of_mem_lowerImage blank image]
      exact List.mem_cons_self
    · exact List.mem_cons_of_mem c (ih later)

theorem isLowered_of_mem_lowerFrom {afterLetter : Bool} {s : List Char} {x : Char}
    (h : x ∈ lowerFrom afterLetter s) : IsLowered x := by
  induction s generalizing afterLetter with
  | nil => simp [lowerFrom] at h
  | cons c s ih =>
    rw [lowerFrom_cons, List.mem_append] at h
    rcases h with image | later
    · exact isLowered_of_mem_lowerImage image
    · exact ih later

/-- Where no character needs its neighbours, a text is lowered one by one. -/
theorem lowerFrom_eq_map {s : List Char} (afterLetter : Bool) (sigma : 'Σ' ∉ s)
    (dotted : 'İ' ∉ s) : lowerFrom afterLetter s = s.map lowerChar := by
  induction s generalizing afterLetter with
  | nil => rfl
  | cons c s ih =>
    obtain ⟨notSigma, sigma⟩ := List.ne_and_not_mem_of_not_mem_cons sigma
    obtain ⟨notDotted, dotted⟩ := List.ne_and_not_mem_of_not_mem_cons dotted
    rw [lowerFrom_cons, ih _ sigma dotted, lowerImage, if_neg notSigma.symm,
      if_neg notDotted.symm]
    rfl

theorem lower_of_isLowered {s : List Char} (h : ∀ c ∈ s, IsLowered c) : lower s = s := by
  have sigma : 'Σ' ∉ s := fun mem => (h _ mem).ne_sigma rfl
  have dotted : 'İ' ∉ s := fun mem => (h _ mem).ne_dotted rfl
  rw [lower, lowerFrom_eq_map false sigma dotted]
  exact (List.map_congr_left fun c hc => (h c hc).lowerChar_eq).trans (List.map_id s)

theorem lower_lower (s : List Char) : lower (lower s) = lower s :=
  lower_of_isLowered fun _ => isLowered_of_mem_lowerFrom

theorem head_lowerFrom {afterLetter : Bool} {s : List Char} {x : Char}
    (h : x ∈ (lowerFrom afterLetter s).head?) :
    ∃ c ∈ s.head?, ∃ rest, x ∈ lowerImage afterLetter c rest := by
  cases s with
  | nil => simp [lowerFrom] at h
  | cons c s =>
    rw [lowerFrom_cons, List.head?_append_of_ne_nil _ (lowerImage_ne_nil _ _ _)] at h
    exact ⟨c, rfl, s, List.mem_of_mem_head? h⟩

theorem getLast_lowerFrom {afterLetter : Bool} {s : List Char} {x : Char}
    (h : x ∈ (lowerFrom afterLetter s).getLast?) :
    ∃ c ∈ s.getLast?, ∃ before rest, x ∈ lowerImage before c rest := by
  induction s generalizing afterLetter with
  | nil => simp [lowerFrom] at h
  | cons c s ih =>
    rw [lowerFrom_cons] at h
    cases s with
    | nil =>
      rw [lowerFrom, List.append_nil] at h
      exact ⟨c, rfl, afterLetter, [], List.mem_of_getLast? h⟩
    | cons d s =>
      have more : lowerFrom (nextAfterLetter afterLetter c) (d :: s) ≠ [] := by
        rw [lowerFrom_cons]
        exact List.append_ne_nil_of_left_ne_nil (lowerImage_ne_nil _ _ _) _
      rw [List.getLast?_append_of_ne_nil _ more] at h
      rw [List.getLast?_cons_cons]
      exact ih h

/-- Lowering brings no blank to either end of a text. -/
theorem trim_lower {s : List Char} (h : trim s = s) : trim (lower s) = lower s := by
  obtain ⟨front, back⟩ := trim_eq_self_iff.mp h
  refine trim_eq_self_iff.mpr ⟨?_, ?_⟩
  · intro x hx
    obtain ⟨c, first, rest, image⟩ := head_lowerFrom hx
    exact isBlank_of_mem_lowerImage (front c first) image
  · intro x hx
    obtain ⟨c, last, before, rest, image⟩ := getLast_lowerFrom hx
    exact isBlank_of_mem_lowerImage (back c last) image

end DiceRoller.Text
