import DialogueScript.Run.Evaluate

/-!
# Evaluation, one operation at a time

* `valueOf_binary` — an operation is the value of its left operand, then of its right operand, then
  the operator on both, although chains are taken apart;
* `Operates` — the operations that an evaluation comes to, with the values they are done on;
* `Operates.valueOf_eq` — such an operation that stops stops the whole evaluation.
-/

namespace DialogueScript

variable {lookup : String → Option Value} {depth : Nat}

theorem Expr.spine_eq (e : Expr) (later : List Step) :
    e.spine later = ((e.spine []).1, (e.spine []).2 ++ later) := by
  induction e generalizing later with
  | binary l op r s ihl _ =>
    have h := ihl (⟨op, r, s⟩ :: later)
    have h' := ihl [⟨op, r, s⟩]
    simp only [spine] at h h' ⊢
    rw [h, h']
    simp
  | assign n v s _ => rfl
  | literal v s => rfl
  | name n s => rfl
  | stray label fields => rfl

theorem applySteps_append (operand : Expr → Except Stop Value) (v : Value) (a b : List Step) :
    applySteps operand v (a ++ b) =
      match applySteps operand v a with
      | .error why => .error why
      | .ok w => applySteps operand w b := by
  induction a generalizing v with
  | nil => rfl
  | cons s a ih =>
    simp only [List.cons_append, applySteps]
    cases operand s.right with
    | error why => rfl
    | ok w =>
      dsimp only
      cases s.op.apply v w s.span with
      | error why => rfl
      | ok x => exact ih x

/-- Evaluation operation by operation. -/
theorem valueOf_binary (l : Expr) (op : Operator) (r : Expr) (span : Option Span) :
    valueOf lookup (depth + 1) (.binary l op r span) =
      match valueOf lookup (depth + 1) l with
      | .error why => .error why
      | .ok v =>
        match valueOf lookup depth r with
        | .error why => .error why
        | .ok w => op.apply v w span := by
  have hspine : (Expr.binary l op r span).spine [] =
      ((l.spine []).1, (l.spine []).2 ++ [⟨op, r, span⟩]) := by
    rw [Expr.spine, Expr.spine_eq]
  simp only [valueOf, hspine]
  cases valueOfAtom lookup (l.spine []).1 with
  | error why => rfl
  | ok v =>
    dsimp only
    rw [applySteps_append]
    cases applySteps (valueOf lookup depth) v (l.spine []).2 with
    | error why => rfl
    | ok v =>
      simp only [applySteps]
      cases valueOf lookup depth r with
      | error why => rfl
      | ok w =>
        dsimp only
        cases op.apply v w span with
        | error why => rfl
        | ok x => rfl

theorem valueOf_name (n : String) (span : Option Span) :
    valueOf lookup (depth + 1) (.name n span) = match lookup n with
      | some v => .ok v
      | none => .error (.failure ⟨.unbound n, span, none⟩) := by
  simp only [valueOf, Expr.spine, valueOfAtom]
  cases lookup n with
  | none => rfl
  | some v => rfl

/-! ## The operations of an evaluation -/

/-- Evaluating an expression comes to an operation on two values. -/
inductive Operates (lookup : String → Option Value) :
    Nat → Expr → Operator → Value → Value → Option Span → Prop
  | here {depth : Nat} {l r : Expr} {op : Operator} {v w : Value} {span : Option Span}
      (hl : valueOf lookup (depth + 1) l = .ok v) (hr : valueOf lookup depth r = .ok w) :
      Operates lookup (depth + 1) (.binary l op r span) op v w span
  | left {depth : Nat} {l r : Expr} {op op' : Operator} {v w : Value} {span span' : Option Span}
      (h : Operates lookup (depth + 1) l op v w span) :
      Operates lookup (depth + 1) (.binary l op' r span') op v w span
  | right {depth : Nat} {l r : Expr} {op op' : Operator} {u v w : Value} {span span' : Option Span}
      (hl : valueOf lookup (depth + 1) l = .ok u) (h : Operates lookup depth r op v w span) :
      Operates lookup (depth + 1) (.binary l op' r span') op v w span

/-- An operation that stops stops the evaluation that comes to it. -/
theorem Operates.valueOf_eq {e : Expr} {op : Operator} {v w : Value} {span : Option Span}
    (h : Operates lookup depth e op v w span) {why : Stop} (hop : op.apply v w span = .error why) :
    valueOf lookup depth e = .error why := by
  induction h with
  | here hl hr => rw [valueOf_binary, hl, hr]; exact hop
  | left _ ih => rw [valueOf_binary, ih hop]
  | right hl _ ih => rw [valueOf_binary, hl, ih hop]

end DialogueScript
