import DialogueScript.Diagnostic
import DialogueScript.Scope.Environment

/-!
# Sequences of uses of an environment

Model of the uses of an `Environment`, with those of `Environment.new_scope` in two parts: entering
the scope, and what follows its body.

Any sequence of declarations, assignments, look-ups and changes of frame, balanced or not.  A
*section* is entered with a frame of its own.  When it ends well, the innermost frame is left,
whichever that is then; when it fails, all frames above the depth at which it was entered are
dropped.

* `History.step` — one use and its answer;
* `History.step_unbound` — a use that finds no binding changes nothing.
-/

namespace DialogueScript

inductive Use where
  | define (name : String) (value : Value)
  | assign (name : String) (value : Value)
  /-- A look-up that insists on a binding. -/
  | lookup (name : String)
  | get (name : String)
  | push (name : String)
  | pop
  | enter (name : String)
  | leave
  | fail
  deriving DecidableEq

inductive Answer where
  | done
  | value (v : Value)
  | noValue
  | frame (name : String)
  | left
  | failed
  | unbound (name : String)
  /-- The outermost frame cannot be left. -/
  | outermost
  | noSection
  deriving DecidableEq

/-- What is reported when the outermost frame should be left. -/
def Answer.outermostMessage : String := "cannot pop the root scope"

/-- What is reported about a name that is not bound. -/
def Answer.unboundFailure (name : String) : Failure := ⟨.unbound name, none, none⟩

/-- An environment and the depths at which the open sections were entered, the latest first. -/
structure History where
  env : Environment := {}
  sections : List Nat := []
  deriving DecidableEq

namespace History

/-- Leaves the innermost frame and answers with `answer`. -/
def popWith (h : History) (answer : Popped → Answer) : Answer × History :=
  match h.env.pop? with
  | some p => (answer p, { h with env := p.env })
  | none => (.outermost, h)

def step (h : History) : Use → Answer × History
  | .define n v => (.done, { h with env := h.env.define n v })
  | .assign n v =>
    match h.env.assign? n v with
    | some env => (.done, { h with env })
    | none => (.unbound n, h)
  | .lookup n =>
    match h.env.lookup n with
    | some v => (.value v, h)
    | none => (.unbound n, h)
  | .get n =>
    match h.env.lookup n with
    | some v => (.value v, h)
    | none => (.noValue, h)
  | .push name => (.frame name, { h with env := h.env.push name })
  | .pop => h.popWith fun p => .frame p.frame.name
  | .enter name => (.frame name, ⟨h.env.push name, h.env.depth :: h.sections⟩)
  | .leave =>
    match h.sections with
    | [] => (.noSection, h)
    | _ :: sections => { h with sections }.popWith fun _ => .left
  | .fail =>
    match h.sections with
    | [] => (.noSection, h)
    | depth :: sections => (.failed, ⟨h.env.unwindTo depth, sections⟩)

def run (h : History) : List Use → History
  | [] => h
  | u :: us => (h.step u).2.run us

/-- Leaving a frame is answered with the frame, or not at all. -/
theorem popWith_answer (h : History) (answer : Popped → Answer) :
    (h.popWith answer).1 = .outermost ∨ ∃ p, (h.popWith answer).1 = answer p := by
  unfold popWith
  cases h.env.pop? with
  | none => exact .inl rfl
  | some p => exact .inr ⟨p, rfl⟩

theorem step_unbound {h h' : History} {u : Use} {n : String}
    (hs : h.step u = (.unbound n, h')) : h' = h := by
  cases u with
  | assign m v =>
    simp only [step] at hs
    cases hassign : h.env.assign? m v with
    | some env => simp [hassign] at hs
    | none =>
      rw [hassign] at hs
      exact (congrArg Prod.snd hs).symm
  | lookup m =>
    simp only [step] at hs
    cases hlookup : h.env.lookup m with
    | some v => simp [hlookup] at hs
    | none =>
      rw [hlookup] at hs
      exact (congrArg Prod.snd hs).symm
  | get m =>
    simp only [step] at hs
    cases hlookup : h.env.lookup m <;> simp [hlookup] at hs
  | pop =>
    have hanswer := congrArg Prod.fst hs
    rcases h.popWith_answer fun p => .frame p.frame.name with hnone | ⟨p, hsome⟩
    · cases hnone.symm.trans hanswer
    · cases hsome.symm.trans hanswer
  | leave =>
    simp only [step] at hs
    cases hsections : h.sections with
    | nil => simp [hsections] at hs
    | cons depth sections =>
      rw [hsections] at hs
      have hanswer := congrArg Prod.fst hs
      rcases ({ h with sections } : History).popWith_answer fun _ => .left with
        hnone | ⟨p, hsome⟩
      · cases hnone.symm.trans hanswer
      · cases hsome.symm.trans hanswer
  | fail =>
    simp only [step] at hs
    cases hsections : h.sections <;> simp [hsections] at hs
  | define m v => cases hs
  | push name => cases hs
  | enter name => cases hs

end History

end DialogueScript
