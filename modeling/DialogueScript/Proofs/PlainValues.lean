import DialogueScript.Proofs.Outcomes

/-!
# Plain recursion over expressions

An evaluation takes a chain of operations apart and does its steps in a row, so a chain may have any
length.  It comes to what plain recursion comes to, which gives an operation the value of its left
operand, then that of its right one, and then the operator.  Plain recursion knows of no levels: an
evaluation ends early exactly if it comes to an operand for which none is left.

* `Expr.plainValue`, `Expr.plainResult`, `Expr.plainText` — an expression where a value is needed,
  where it may be an assignment, and where it is printed, by plain recursion;
* `Exhausts` — from left to right, an expression comes to an operand for which no level is left;
* `Expr.nesting` — how many right operands lie inside one another: `Exhausts.le_nesting`;
* `valueOf_plain` — the value of an expression is the plain one, as far as the levels reach;
* `evaluate_plain` — **so are its effect, where it may be an assignment, and its printed text**.
-/

namespace DialogueScript

/-! ## Plain recursion -/

/-- The value of an expression where a value is needed: first that of the left operand, then that of
the right one, then the operator on both. -/
def Expr.plainValue (lookup : String → Option Value) : Expr → Except Stop Value
  | .literal v _ => .ok v
  | .name n span =>
    match lookup n with
    | some v => .ok v
    | none => .error (.failure ⟨.unbound n, span, none⟩)
  | .assign n _ span => .error (.failure ⟨.chainedAssignment n, span, none⟩)
  | .stray label _ => .error (.crash (.strayExpression label))
  | .binary l op r span => do
    let v ← l.plainValue lookup
    let w ← r.plainValue lookup
    op.apply v w span

/-- What an expression does where it may be an assignment. -/
def Expr.plainResult (e : Expr) (s : Session) : Except Stop Value × Session :=
  match e with
  | .assign n v span =>
    match v.plainValue s.env.lookup with
    | .error why => (.error why, s)
    | .ok x =>
      match s.env.assign? n x with
      | some env => (.ok assigned, { s with env })
      | none => (.error (.failure ⟨.unbound n, span, none⟩), s)
  | e => (e.plainValue s.env.lookup, s)

/-- The printed text of an expression. -/
def Expr.plainText (e : Expr) (s : Session) : Except Stop String := do
  return (← e.plainValue s.env.lookup).display

/-! ## Levels -/

/-- An evaluation from left to right, inside a number of levels, comes to an operand for which no
level is left.  Only a right operand lies one level deeper. -/
inductive Exhausts (lookup : String → Option Value) : Nat → Expr → Prop
  | here (e : Expr) : Exhausts lookup 0 e
  | left {depth : Nat} {l r : Expr} {op : Operator} {span : Option Span}
      (h : Exhausts lookup (depth + 1) l) : Exhausts lookup (depth + 1) (.binary l op r span)
  | right {depth : Nat} {l r : Expr} {op : Operator} {span : Option Span} {v : Value}
      (hl : l.plainValue lookup = .ok v) (h : Exhausts lookup depth r) :
      Exhausts lookup (depth + 1) (.binary l op r span)

/-- How many right operands lie inside one another.  A chain of operations counts as its deepest
operand, whatever its length. -/
def Expr.nesting : Expr → Nat
  | .binary l _ r _ => max l.nesting (r.nesting + 1)
  | _ => 0

variable {lookup : String → Option Value} {depth : Nat}

theorem Exhausts.le_nesting {e : Expr} (h : Exhausts lookup depth e) : depth ≤ e.nesting := by
  induction h with
  | here e => exact Nat.zero_le _
  | left _ ih =>
    simp only [Expr.nesting]
    omega
  | right _ _ ih =>
    simp only [Expr.nesting]
    omega

theorem exhausts_binary_iff {l r : Expr} {op : Operator} {span : Option Span} :
    Exhausts lookup (depth + 1) (.binary l op r span) ↔
      Exhausts lookup (depth + 1) l ∨
        (∃ v, l.plainValue lookup = .ok v) ∧ Exhausts lookup depth r := by
  constructor
  · intro h
    cases h with
    | left h => exact .inl h
    | right hl h => exact .inr ⟨⟨_, hl⟩, h⟩
  · rintro (h | ⟨⟨v, hl⟩, h⟩)
    · exact .left h
    · exact .right hl h

/-! ## Evaluations -/

/-- The levels have run out on the way, or the value is the plain one. -/
def PlainOrExhausted (lookup : String → Option Value) (depth : Nat) (e : Expr) : Prop :=
  (Exhausts lookup depth e ∧ valueOf lookup depth e = .error .tooDeep) ∨
    (¬ Exhausts lookup depth e ∧ valueOf lookup depth e = e.plainValue lookup)

theorem plainOrExhausted_zero (e : Expr) : PlainOrExhausted lookup 0 e := .inl ⟨.here e, rfl⟩

/-- An expression that is no operation needs one level. -/
theorem plainOrExhausted_atom {e : Expr} (he : ∀ l op r span, e ≠ .binary l op r span)
    (depth : Nat) : PlainOrExhausted lookup depth e := by
  cases depth with
  | zero => exact plainOrExhausted_zero e
  | succ depth =>
    refine .inr ⟨?_, ?_⟩
    · intro h
      cases h with
      | left h => exact he _ _ _ _ rfl
      | right hl h => exact he _ _ _ _ rfl
    · cases e with
      | binary l op r span => exact absurd rfl (he l op r span)
      | name n span => exact valueOf_name n span
      | literal v span => rfl
      | assign n v span => rfl
      | stray label fields => rfl

theorem plainOrExhausted_binary {l r : Expr} (hl : PlainOrExhausted lookup (depth + 1) l)
    (hr : PlainOrExhausted lookup depth r) (op : Operator) (span : Option Span) :
    PlainOrExhausted lookup (depth + 1) (.binary l op r span) := by
  unfold PlainOrExhausted
  rw [exhausts_binary_iff, valueOf_binary]
  simp only [Expr.plainValue]
  obtain ⟨hdeep, hl⟩ | ⟨hdeep, hl⟩ := hl
  · exact .inl ⟨.inl hdeep, by rw [hl]⟩
  rw [hl]
  cases hv : l.plainValue lookup with
  | error why =>
    -- the right operand is not come to
    refine .inr ⟨?_, rfl⟩
    rintro (h | ⟨⟨v, h⟩, -⟩)
    · exact hdeep h
    · cases h
  | ok v =>
    obtain ⟨hdeep', hr⟩ | ⟨hdeep', hr⟩ := hr
    · exact .inl ⟨.inr ⟨⟨v, rfl⟩, hdeep'⟩, by rw [hr]⟩
    · refine .inr ⟨?_, ?_⟩
      · rintro (h | ⟨-, h⟩)
        · exact hdeep h
        · exact hdeep' h
      · rw [hr]
        cases r.plainValue lookup with
        | error why => rfl
        | ok w => rfl

/-- **The value of an expression is the plain one, as far as the levels reach.** -/
theorem valueOf_plain (lookup : String → Option Value) (depth : Nat) (e : Expr) :
    PlainOrExhausted lookup depth e := by
  induction e generalizing depth with
  | binary l op r span ihl ihr =>
    cases depth with
    | zero => exact plainOrExhausted_zero _
    | succ depth => exact plainOrExhausted_binary (ihl (depth + 1)) (ihr depth) op span
  | name n span => exact plainOrExhausted_atom (by simp) depth
  | literal v span => exact plainOrExhausted_atom (by simp) depth
  | assign n v span _ => exact plainOrExhausted_atom (by simp) depth
  | stray label fields => exact plainOrExhausted_atom (by simp) depth

/-- An expression does what its value makes it do. -/
theorem evaluate_plainResult {e : Expr} {s : Session}
    (h : valueOf s.env.lookup depth e.sought = e.sought.plainValue s.env.lookup) :
    evaluate depth e s = e.plainResult s := by
  cases e with
  | assign n v span =>
    rw [Expr.sought] at h
    rw [evaluate, h]
    rfl
  | binary l op r span => exact congrArg (·, s) h
  | name n span => exact congrArg (·, s) h
  | literal v span => exact congrArg (·, s) h
  | stray label fields => exact congrArg (·, s) h

/-- Without a value nothing is done. -/
theorem evaluate_error {e : Expr} {s : Session} {why : Stop}
    (h : valueOf s.env.lookup depth e.sought = .error why) :
    evaluate depth e s = (.error why, s) := by
  cases e with
  | assign n v span =>
    rw [Expr.sought] at h
    rw [evaluate, h]
  | binary l op r span => exact congrArg (·, s) h
  | name n span => exact congrArg (·, s) h
  | literal v span => exact congrArg (·, s) h
  | stray label fields => exact congrArg (·, s) h

/-- **Evaluation and printing by plain recursion.**  Where an expression may be an assignment and
where it is printed, value, failure and session are those of plain recursion.  The only other
answer is that there are not enough levels, and it is given exactly if from left to right the
expression comes to an operand that has none left, so to one inside that many right operands. -/
theorem evaluate_plain (depth : Nat) (e : Expr) (s : Session) :
    ((Exhausts s.env.lookup depth e.sought ∧ depth ≤ e.sought.nesting ∧
        evaluate depth e s = (.error .tooDeep, s)) ∨
      (¬ Exhausts s.env.lookup depth e.sought ∧ evaluate depth e s = e.plainResult s)) ∧
    ((Exhausts s.env.lookup depth e ∧ depth ≤ e.nesting ∧
        displayOf depth e s = .error .tooDeep) ∨
      (¬ Exhausts s.env.lookup depth e ∧ displayOf depth e s = e.plainText s)) := by
  constructor
  · obtain ⟨hdeep, h⟩ | ⟨hdeep, h⟩ := valueOf_plain s.env.lookup depth e.sought
    · exact .inl ⟨hdeep, hdeep.le_nesting, evaluate_error h⟩
    · exact .inr ⟨hdeep, evaluate_plainResult h⟩
  · obtain ⟨hdeep, h⟩ | ⟨hdeep, h⟩ := valueOf_plain s.env.lookup depth e
    · exact .inl ⟨hdeep, hdeep.le_nesting, by rw [displayOf, h]; rfl⟩
    · refine .inr ⟨hdeep, ?_⟩
      rw [displayOf, h, Expr.plainText]
      cases e.plainValue s.env.lookup with
      | error why => rfl
      | ok v => rfl

end DialogueScript
