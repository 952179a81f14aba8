import DialogueScript.Run.Arithmetic

/-!
# Evaluation of expressions

Model of `Interpreter._evaluate_value` and `Interpreter._eval_binary`.

A chain of operations that is grouped to the left may have any length: it is taken apart into its
first operand and its steps, which are then done from left to right.  Only a right operand lies one
level deeper.

* `Expr.spine` — the first operand of a chain and the steps after it;
* `valueOf` — the value of an expression inside a number of levels;
* `spine_head_ne_binary` — what a spine starts with is no operation.
-/

namespace DialogueScript

/-- An operator with its right operand and the span of the whole operation. -/
structure Step where
  op : Operator
  right : Expr
  span : Option Span
  deriving DecidableEq

/-- The first operand of a chain, and its steps before those in `later`. -/
def Expr.spine : Expr → List Step → Expr × List Step
  | .binary l op r s, later => l.spine (⟨op, r, s⟩ :: later)
  | e, later => (e, later)

/-- The value of an expression that is no operation. -/
def valueOfAtom (lookup : String → Option Value) : Expr → Except Stop Value
  | .literal v _ => .ok v
  | .name n span =>
    match lookup n with
    | some v => .ok v
    | none => .error (.failure ⟨.unbound n, span, none⟩)
  | .assign n _ span => .error (.failure ⟨.chainedAssignment n, span, none⟩)
  | .stray label _ => .error (.crash (.strayExpression label))
  | .binary _ _ _ _ => .error .tooDeep

/-- Does the steps of a chain one after the other.  Model of `_eval_binary`. -/
def applySteps (operand : Expr → Except Stop Value) : Value → List Step → Except Stop Value
  | v, [] => .ok v
  | v, s :: steps =>
    match operand s.right with
    | .error why => .error why
    | .ok w =>
      match s.op.apply v w s.span with
      | .error why => .error why
      | .ok v => applySteps operand v steps

/-- The value of an expression where a value is needed, inside `depth` levels.  Model of
`_evaluate_value`. -/
def valueOf (lookup : String → Option Value) : Nat → Expr → Except Stop Value
  | 0, _ => .error .tooDeep
  | depth + 1, e =>
    match valueOfAtom lookup (e.spine []).1 with
    | .error why => .error why
    | .ok v => applySteps (valueOf lookup depth) v (e.spine []).2

theorem spine_head_ne_binary (e : Expr) (later : List Step) (l : Expr) (op : Operator) (r : Expr)
    (s : Option Span) : (e.spine later).1 ≠ .binary l op r s := by
  induction e generalizing later with
  | binary l' op' r' s' ihl _ => exact ihl _
  | assign n v s' _ => simp [Expr.spine]
  | literal v s' => simp [Expr.spine]
  | name n s' => simp [Expr.spine]
  | stray label fields => simp [Expr.spine]

end DialogueScript
