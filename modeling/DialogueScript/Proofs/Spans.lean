import DialogueScript.Proofs.Operations
import DialogueScript.Proofs.Runs
import DialogueScript.Proofs.Stops

/-!
# What failures point at

* `Expr.Spanned`, `Stmt.Spanned` — every node of a tree has a span with some property, so there is
  no stray node among them;
* `Stop.Within` — the reasons to stop that such trees have: failures at spans with the property, and
  no crash but that of an endless loop or of a text that cannot be read;
* `valueOf_within`, `execute_within` — evaluations and executions stop for no other reason;
* `Program.runFrom_within` — the failures of a run are at the spans of its program.
-/

namespace DialogueScript

/-- Every node of the expression has a span with the property. -/
inductive Expr.Spanned (P : Span → Prop) : Expr → Prop
  | assign {n : String} {v : Expr} {s : Span} (hv : v.Spanned P) (hs : P s) :
      Spanned P (.assign n v (some s))
  | binary {l r : Expr} {op : Operator} {s : Span} (hl : l.Spanned P) (hr : r.Spanned P)
      (hs : P s) : Spanned P (.binary l op r (some s))
  | literal {v : Value} {s : Span} (hs : P s) : Spanned P (.literal v (some s))
  | name {n : String} {s : Span} (hs : P s) : Spanned P (.name n (some s))

/-- Every node of the statement has a span with the property. -/
inductive Stmt.Spanned (P : Span → Prop) : Stmt → Prop
  | block {body : List Stmt} {s : Span} (hbody : ∀ stmt ∈ body, stmt.Spanned P) (hs : P s) :
      Spanned P (.block body (some s))
  | express {e : Expr} {s : Span} (he : e.Spanned P) (hs : P s) : Spanned P (.express e (some s))
  | branch {c : Expr} {body : Stmt} {s : Span} (hc : c.Spanned P) (hbody : body.Spanned P)
      (hs : P s) : Spanned P (.branch c body (some s))
  | loop {body : Stmt} {s : Span} (hbody : body.Spanned P) (hs : P s) :
      Spanned P (.loop body (some s))
  | speak {e : Expr} {s : Span} (he : e.Spanned P) (hs : P s) : Spanned P (.speak e (some s))
  | input {n : String} {s : Span} (hs : P s) : Spanned P (.input n (some s))
  | declare {n : String} {e : Expr} {s : Span} (he : e.Spanned P) (hs : P s) :
      Spanned P (.declare n e (some s))
  | exit {s : Span} (hs : P s) : Spanned P (.exit (some s))

variable {P : Span → Prop}

theorem Expr.Spanned.span {e : Expr} (h : e.Spanned P) : ∃ s, e.span = some s ∧ P s := by
  cases h with
  | assign _ hs => exact ⟨_, rfl, hs⟩
  | binary _ _ hs => exact ⟨_, rfl, hs⟩
  | literal hs => exact ⟨_, rfl, hs⟩
  | name hs => exact ⟨_, rfl, hs⟩

theorem Stmt.Spanned.span {stmt : Stmt} (h : stmt.Spanned P) : ∃ s, stmt.span = some s ∧ P s := by
  cases h with
  | block _ hs => exact ⟨_, rfl, hs⟩
  | express _ hs => exact ⟨_, rfl, hs⟩
  | branch _ _ hs => exact ⟨_, rfl, hs⟩
  | loop _ hs => exact ⟨_, rfl, hs⟩
  | speak _ hs => exact ⟨_, rfl, hs⟩
  | input hs => exact ⟨_, rfl, hs⟩
  | declare _ hs => exact ⟨_, rfl, hs⟩
  | exit hs => exact ⟨_, rfl, hs⟩

/-- A failure at a span with the property, which quotes no source line yet. -/
def Failure.Within (P : Span → Prop) (f : Failure) : Prop :=
  ∃ s, f.span = some s ∧ P s ∧ f.sourceLine = none

/-- What stops a tree whose spans have the property. -/
def Stop.Within (P : Span → Prop) : Stop → Prop
  | .failure f => f.Within P
  | .crash c => c = .endless ∨ ∃ text, c = .unreadable text
  | .exit | .tooDeep => True

theorem Operator.apply_within {op : Operator} {v w : Value} {s : Span} {why : Stop} (hs : P s)
    (h : op.apply v w (some s) = .error why) : why.Within P := by
  rcases apply_error_cases h with ⟨fault, rfl⟩ | ⟨hop, hnumbers⟩
  · exact ⟨s, rfl, hs, rfl⟩
  · rcases Value.numbers?_eq_error_iff.mp hnumbers with hl | ⟨-, hr⟩
    · obtain ⟨text, -, -, rfl⟩ := Value.number?_eq_error_iff.mp hl
      exact .inr ⟨text, rfl⟩
    · obtain ⟨text, -, -, rfl⟩ := Value.number?_eq_error_iff.mp hr
      exact .inr ⟨text, rfl⟩

theorem valueOf_within {lookup : String → Option Value} {depth : Nat} {e : Expr} {why : Stop}
    (he : e.Spanned P) (h : valueOf lookup depth e = .error why) : why.Within P := by
  induction he generalizing depth why with
  | @assign n v s _ hs _ =>
    cases depth with
    | zero =>
      cases h
      trivial
    | succ depth =>
      cases h
      exact ⟨s, rfl, hs, rfl⟩
  | @binary l r op s _ _ hs ihl ihr =>
    cases depth with
    | zero =>
      cases h
      trivial
    | succ depth =>
      rw [valueOf_binary] at h
      split at h
      · rename_i hl
        cases h
        exact ihl hl
      · split at h
        · rename_i hr
          cases h
          exact ihr hr
        · exact Operator.apply_within hs h
  | literal hs =>
    cases depth with
    | zero =>
      cases h
      trivial
    | succ depth => cases h
  | @name n s hs =>
    cases depth with
    | zero =>
      cases h
      trivial
    | succ depth =>
      rw [valueOf_name] at h
      split at h
      · cases h
      · cases h
        exact ⟨s, rfl, hs, rfl⟩

theorem evaluate_within {depth : Nat} {e : Expr} {s : Session} {why : Stop} (he : e.Spanned P)
    (h : (evaluate depth e s).1 = .error why) : why.Within P := by
  cases he with
  | @assign n v span hv hs =>
    rw [evaluate] at h
    split at h
    · rename_i hval
      cases h
      exact valueOf_within hv hval
    · split at h
      · cases h
      · cases h
        exact ⟨span, rfl, hs, rfl⟩
  | binary hl hr hs => exact valueOf_within (.binary hl hr hs) h
  | literal hs => exact valueOf_within (.literal hs) h
  | name hs => exact valueOf_within (.name hs) h

theorem truth_within {v : Value} {s : Span} {why : Stop} (hs : P s)
    (h : truth v (some s) = .error why) : why.Within P := by
  unfold truth at h
  split at h
  · split at h
    · cases h
    · split at h
      · cases h
      · cases h
        exact ⟨s, rfl, hs, rfl⟩
  · cases h
    exact ⟨s, rfl, hs, rfl⟩

theorem StopsAt.within {rounds depth : Nat} {stmt : Stmt} {s : Session} {why : Stop}
    (h : StopsAt rounds depth stmt s why) (hstmt : stmt.Spanned P) : why.Within P := by
  cases h with
  | tooDeep => trivial
  | express h =>
    cases hstmt with
    | express he _ => exact evaluate_within he h
  | declare h =>
    cases hstmt with
    | declare he _ => exact valueOf_within he h
  | speak h =>
    cases hstmt with
    | speak he _ => exact valueOf_within he h
  | condition h =>
    cases hstmt with
    | branch hc _ _ => exact evaluate_within hc h
  | truth _ h =>
    cases hstmt with
    | branch hc _ _ =>
      obtain ⟨span, hspan, hs⟩ := hc.span
      rw [hspan] at h
      exact truth_within hs h
  | endless _ => exact .inl rfl
  | exit => trivial
  | stray => cases hstmt

/-- The statements inside a tree have the spans of the tree. -/
theorem Comes.spanned {rounds depth depth' : Nat} {stmt stmt' : Stmt} {s t : Session}
    (h : Comes rounds depth stmt s depth' stmt' t) (hstmt : stmt.Spanned P) : stmt'.Spanned P := by
  induction h with
  | here => exact hstmt
  | block _ _ ih =>
    cases hstmt with
    | block hbody _ => exact ih (hbody _ (by simp))
  | branch _ _ _ ih =>
    cases hstmt with
    | branch _ hbody _ => exact ih hbody
  | loop _ _ _ ih =>
    cases hstmt with
    | loop hbody _ => exact ih hbody

theorem execute_within {rounds depth : Nat} {stmt : Stmt} {s : Session} {why : Stop}
    (hstmt : stmt.Spanned P) (h : (execute rounds depth stmt s).2 = some why) : why.Within P := by
  obtain ⟨depth', stmt', t, hcomes, hat⟩ := execute_stop_iff.mp h
  exact hat.within (hcomes.spanned hstmt)

theorem Stop.Within.failure {why : Stop} {stmt : Stmt} {f : Failure} (h : why.Within P)
    (hstmt : stmt.Spanned P) (hf : why.failure? stmt = some f) : f.Within P := by
  cases why with
  | exit => cases hf
  | failure g =>
    cases hf
    exact h
  | tooDeep =>
    cases hf
    obtain ⟨s, hspan, hs⟩ := hstmt.span
    exact ⟨s, hspan, hs, rfl⟩
  | crash c => cases hf

/-- The failures that a run puts on record are at the spans of its program. -/
theorem Program.runFrom_within {policy : ErrorPolicy} {source : Option String} {limits : Limits}
    {p : List Stmt} {failures : List Failure} {s : Session} {o : Outcome}
    (hp : ∀ stmt ∈ p, stmt.Spanned P)
    (h : (runFrom policy source limits p failures s).1 = .ok o) {g : Failure}
    (hg : g ∈ o.failures) : g ∈ failures ∨ ∃ f : Failure, f.Within P ∧ g = f.quoting source := by
  rcases mem_failures h hg with hg | ⟨stmt, t, why, f, hexec, hwhy, hf, rfl⟩
  · exact .inl hg
  · have hstmt := hp stmt hexec.mem
    exact .inr ⟨f, (execute_within hstmt hwhy).failure hstmt hf, rfl⟩

end DialogueScript
