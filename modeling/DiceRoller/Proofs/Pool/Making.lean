import DiceRoller.Proofs.Pool.Courses
import DiceRoller.Proofs.Roll.Scripted

/-!
# What is made of given faces

An expression makes a tally of faces if it comes to this tally wherever these are the next faces
of its dice. One that does not expand makes its score of as many faces as it has dice, and
nothing else (`makes_iff`), so that two such expressions can be compared on their faces alone.
-/

namespace DiceRoller

namespace Expression

/-- On every source that gives the faces, under any cap, the expression takes all of them and no
more and ends with the tally. -/
def Makes (e : Expression) (faces : List Int) (tally : Tally) : Prop :=
  ∀ ⦃σ : Type⦄ [DiceSource σ] (text : String) (cap : Int) (tray : Tray σ) (after : σ),
    Gives tray.source (throwsOf e.die faces) after →
      ((e.roll text cap).run tray).ending = .finished tally ∧
        ((e.roll text cap).run tray).tray = ⟨after, tray.drawn + faces.length⟩

variable {e : Expression} {faces : List Int} {tally tally' : Tally}

/-- There is always a script of the faces, and on it the expression has one end only. -/
theorem Makes.unique (h : e.Makes faces tally) (other : e.Makes faces tally') : tally' = tally := by
  have given : Gives (Script.tray faces).source (throwsOf e.die faces) ⟨[]⟩ :=
    gives_script_iff.mpr (by simp [throwsOf, Function.comp_def])
  have ended := (h "" 0 (Script.tray faces) ⟨[]⟩ given).1
  have ended' := (other "" 0 (Script.tray faces) ⟨[]⟩ given).1
  exact Ending.finished.inj (ended'.symm.trans ended)

theorem makes_score (plain : e.expansion? = none) (size : faces.length = e.count.toNat) :
    e.Makes faces (e.score faces) := by
  intro σ _ text cap tray after given
  exact run_of_plain plain text cap size given

theorem makes_iff (plain : e.expansion? = none) (size : faces.length = e.count.toNat) :
    e.Makes faces tally ↔ tally = e.score faces := by
  constructor
  · exact (makes_score plain size).unique
  · rintro rfl
    exact makes_score plain size

end Expression

end DiceRoller
