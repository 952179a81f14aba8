import DialogueScript.Proofs.Outcomes

/-!
# What fails by itself

* `Visits`, `FailsAt` — the parts of an expression whose values are needed, and the ways in which a
  part fails by itself;
* `valueOf_error_iff` — **an evaluation fails exactly when it comes to a part that fails by
  itself**, and for that reason;
* `Operator.Refuses`, `Operator.apply_eq_failure_iff` — the operands that an operator refuses, and
  that these are the failures of operations;
* `truth_eq_error_iff` — a condition fails with any other value than the two truth texts;
* `StopsAt.because` — so a statement fails by itself in one of three ways.
-/

namespace DialogueScript

/-! ## Expressions -/

section

variable {lookup : String → Option Value}

/-- Evaluating an expression comes to one of its parts, inside a number of levels. -/
inductive Visits (lookup : String → Option Value) : Nat → Expr → Nat → Expr → Prop
  | here (depth : Nat) (e : Expr) : Visits lookup depth e depth e
  | left {depth depth' : Nat} {l r e : Expr} {op : Operator} {span : Option Span}
      (h : Visits lookup (depth + 1) l depth' e) :
      Visits lookup (depth + 1) (.binary l op r span) depth' e
  | right {depth depth' : Nat} {l r e : Expr} {op : Operator} {span : Option Span} {v : Value}
      (hl : valueOf lookup (depth + 1) l = .ok v) (h : Visits lookup depth r depth' e) :
      Visits lookup (depth + 1) (.binary l op r span) depth' e

/-- An expression stops the evaluation, but not because of a part of it. -/
inductive FailsAt (lookup : String → Option Value) : Nat → Expr → Stop → Prop
  | tooDeep (e : Expr) : FailsAt lookup 0 e .tooDeep
  | unbound {depth : Nat} {n : String} {span : Option Span} (hn : lookup n = none) :
      FailsAt lookup (depth + 1) (.name n span) (.failure ⟨.unbound n, span, none⟩)
  | chained (depth : Nat) (n : String) (v : Expr) (span : Option Span) :
      FailsAt lookup (depth + 1) (.assign n v span) (.failure ⟨.chainedAssignment n, span, none⟩)
  | operation {depth : Nat} {l r : Expr} {op : Operator} {span : Option Span} {v w : Value}
      {why : Stop} (hl : valueOf lookup (depth + 1) l = .ok v) (hr : valueOf lookup depth r = .ok w)
      (hop : op.apply v w span = .error why) :
      FailsAt lookup (depth + 1) (.binary l op r span) why
  | stray (depth : Nat) (label : String) (fields : List String) :
      FailsAt lookup (depth + 1) (.stray label fields) (.crash (.strayExpression label))

theorem Visits.valueOf_eq {depth depth' : Nat} {e e' : Expr} {why : Stop}
    (h : Visits lookup depth e depth' e') (hwhy : valueOf lookup depth' e' = .error why) :
    valueOf lookup depth e = .error why := by
  induction h with
  | here => exact hwhy
  | left _ ih => rw [valueOf_binary, ih hwhy]
  | right hl _ ih => rw [valueOf_binary, hl, ih hwhy]

theorem FailsAt.valueOf_eq {depth : Nat} {e : Expr} {why : Stop}
    (h : FailsAt lookup depth e why) : valueOf lookup depth e = .error why := by
  cases h with
  | tooDeep => rfl
  | unbound hn => rw [valueOf_name, hn]
  | chained => rfl
  | operation hl hr hop => rw [valueOf_binary, hl, hr]; exact hop
  | stray => rfl

theorem FailsAt.of_zero {e : Expr} {why : Stop} (h : valueOf lookup 0 e = .error why) :
    FailsAt lookup 0 e why := by
  cases h
  exact .tooDeep e

/-- **How an evaluation fails.**  It comes to a part that fails by itself. -/
theorem valueOf_error_iff {depth : Nat} {e : Expr} {why : Stop} :
    valueOf lookup depth e = .error why ↔
      ∃ depth' e', Visits lookup depth e depth' e' ∧ FailsAt lookup depth' e' why := by
  refine ⟨fun h => ?_, fun ⟨depth', e', hvisits, hat⟩ => hvisits.valueOf_eq hat.valueOf_eq⟩
  induction e generalizing depth why with
  | assign n v span _ =>
    cases depth with
    | zero => exact ⟨_, _, .here _ _, .of_zero h⟩
    | succ depth =>
      cases h
      exact ⟨_, _, .here _ _, .chained _ _ _ _⟩
  | binary l op r span ihl ihr =>
    cases depth with
    | zero => exact ⟨_, _, .here _ _, .of_zero h⟩
    | succ depth =>
      rw [valueOf_binary] at h
      split at h
      · rename_i hl
        cases h
        obtain ⟨depth', e', hvisits, hat⟩ := ihl hl
        exact ⟨depth', e', .left hvisits, hat⟩
      · rename_i v hl
        split at h
        · rename_i hr
          cases h
          obtain ⟨depth', e', hvisits, hat⟩ := ihr hr
          exact ⟨depth', e', .right hl hvisits, hat⟩
        · rename_i w hr
          exact ⟨_, _, .here _ _, .operation hl hr h⟩
  | literal v span =>
    cases depth with
    | zero => exact ⟨_, _, .here _ _, .of_zero h⟩
    | succ depth => cases h
  | name n span =>
    cases depth with
    | zero => exact ⟨_, _, .here _ _, .of_zero h⟩
    | succ depth =>
      rw [valueOf_name] at h
      split at h
      · cases h
      · rename_i hn
        cases h
        exact ⟨_, _, .here _ _, .unbound hn⟩
  | stray label fields =>
    cases depth with
    | zero => exact ⟨_, _, .here _ _, .of_zero h⟩
    | succ depth =>
      cases h
      exact ⟨_, _, .here _ _, .stray _ _ _⟩

end

/-! ## Operations -/

namespace Operator

/-- The operator refuses the two values. -/
inductive Refuses : Operator → Value → Value → Fault → Prop
  | typeMismatch {op : Operator} {l r : Value} (hop : op ∈ [minus, times, dividedBy])
      (h : Value.numbers? l r = .ok none) :
      Refuses op l r (.typeMismatch op.symbol l.display r.display)
  | divisionByZero {l r : Value} {x y : Float} (h : Value.numbers? l r = .ok (some (x, y)))
      (hy : (y == 0) = true) : Refuses .dividedBy l r .divisionByZero
  | missingOperator (shown : String) (l r : Value) :
      Refuses (.unknown shown) l r (.missingOperator shown)

variable {op : Operator} {l r : Value} {span : Option Span} {f : Failure}

theorem numbers?_ne_failure : Value.numbers? l r ≠ .error (.failure f) := by
  intro h
  rcases Value.numbers?_eq_error_iff.mp h with h | ⟨-, h⟩
  · obtain ⟨_, _, _, hwhy⟩ := Value.number?_eq_error_iff.mp h
    cases hwhy
  · obtain ⟨_, _, _, hwhy⟩ := Value.number?_eq_error_iff.mp h
    cases hwhy

theorem operands_eq (op : Operator) (l r : Value) (span : Option Span) :
    operands op l r span =
      match Value.numbers? l r with
      | .error why => .error why
      | .ok none => .error (.failure ⟨.typeMismatch op.symbol l.display r.display, span, none⟩)
      | .ok (some xy) => .ok xy := by
  unfold operands
  cases Value.numbers? l r with
  | error why => rfl
  | ok xy => cases xy <;> rfl

theorem add_ne_failure : add l r ≠ .error (.failure f) := by
  intro h
  unfold add at h
  split at h
  · cases h
  · rcases bind_eq_error h with h | ⟨xy, -, h⟩
    · exact numbers?_ne_failure h
    · cases xy <;> cases h
  · cases h

/-- Operands that are no numbers are refused, whatever is done with numbers. -/
theorem operands_eq_failure (h : operands op l r span = .error (.failure f)) :
    Value.numbers? l r = .ok none ∧
      f = ⟨.typeMismatch op.symbol l.display r.display, span, none⟩ := by
  rw [operands_eq] at h
  split at h
  · rename_i hnumbers
    cases h
    exact absurd hnumbers numbers?_ne_failure
  · rename_i hnone
    cases h
    exact ⟨hnone, rfl⟩
  · cases h

/-- **Which operations fail.**  Those whose operator refuses the operands. -/
theorem apply_eq_failure_iff : op.apply l r span = .error (.failure f) ↔
    ∃ fault, op.Refuses l r fault ∧ f = ⟨fault, span, none⟩ := by
  constructor
  · intro h
    cases op with
    | plus => exact absurd h add_ne_failure
    | minus =>
      rcases bind_eq_error h with h | ⟨xy, -, h⟩
      · obtain ⟨hnone, rfl⟩ := operands_eq_failure h
        exact ⟨_, .typeMismatch (by simp) hnone, rfl⟩
      · cases h
    | times =>
      rcases bind_eq_error h with h | ⟨xy, -, h⟩
      · obtain ⟨hnone, rfl⟩ := operands_eq_failure h
        exact ⟨_, .typeMismatch (by simp) hnone, rfl⟩
      · cases h
    | dividedBy =>
      rcases bind_eq_error h with h | ⟨⟨x, y⟩, hxy, h⟩
      · obtain ⟨hnone, rfl⟩ := operands_eq_failure h
        exact ⟨_, .typeMismatch (by simp) hnone, rfl⟩
      · rw [operands_eq] at hxy
        split at hxy
        · cases hxy
        · cases hxy
        · rename_i hnumbers
          cases hxy
          dsimp only at h
          split at h
          · rename_i hy
            cases h
            exact ⟨_, .divisionByZero hnumbers hy, rfl⟩
          · cases h
    | equals => cases h
    | unknown shown =>
      cases h
      exact ⟨_, .missingOperator shown l r, rfl⟩
  · rintro ⟨fault, hrefuses, rfl⟩
    cases hrefuses with
    | typeMismatch hop hnone =>
      simp only [List.mem_cons, List.not_mem_nil, or_false] at hop
      rcases hop with rfl | rfl | rfl <;> simp [apply, operands_eq, hnone, bind, Except.bind]
    | divisionByZero hnumbers hy =>
      simp [apply, operands_eq, hnumbers, hy, bind, Except.bind, throw, throwThe,
        MonadExceptOf.throw]
    | missingOperator => rfl

end Operator

/-! ## Statements -/

/-- A value that is no truth value, as messages show it. -/
def Value.described : Value → String
  | .text s => Text.quoted s
  | .number x => s!"number {Number.display x}"

/-- **Which conditions fail.**  Those with a value that is neither of the two truth texts. -/
theorem truth_eq_error_iff {v : Value} {span : Option Span} {why : Stop} :
    truth v span = .error why ↔ v ≠ .text "True" ∧ v ≠ .text "False" ∧
      why = .failure ⟨.notBoolean v.described, span, none⟩ := by
  cases v with
  | number x => simp [truth, Value.described, eq_comm]
  | text s =>
    unfold truth
    dsimp only
    split
    · rename_i htrue
      simp [htrue]
    · rename_i htrue
      split
      · rename_i hfalse
        simp [hfalse]
      · rename_i hfalse
        simp [htrue, hfalse, Value.described, eq_comm]

/-- The expression of a statement that may be an assignment. -/
def Stmt.effect? : Stmt → Option Expr
  | .express e _ | .branch e _ _ => some e
  | _ => none

/-- An assignment, where it may stand, fails with its value or because its name is not bound. -/
theorem evaluate_error_cases {depth : Nat} {e : Expr} {s : Session} {why : Stop}
    (h : (evaluate depth e s).1 = .error why) :
    valueOf s.env.lookup depth e.sought = .error why ∨
      ∃ n v span x, e = .assign n v span ∧ valueOf s.env.lookup depth v = .ok x ∧
        s.env.assign? n x = none ∧ why = .failure ⟨.unbound n, span, none⟩ := by
  cases e with
  | assign n v span =>
    rw [evaluate] at h
    split at h
    · rename_i hv
      cases h
      exact .inl hv
    · rename_i x hx
      split at h
      · cases h
      · rename_i hn
        cases h
        exact .inr ⟨n, v, span, x, rfl, hx, hn, rfl⟩
  | binary l op r span => exact .inl h
  | literal v span => exact .inl h
  | name n span => exact .inl h
  | stray label fields => exact .inl h

/-- The ways in which a statement fails by itself. -/
inductive StopsAt.Because (depth : Nat) (stmt : Stmt) (s : Session) (f : Failure) : Prop
  /-- It needs a value that an expression does not have. -/
  | value {e : Expr} (he : stmt.sought? = some e)
      (h : valueOf s.env.lookup depth e = .error (.failure f))
  /-- It is to assign a value to a name that is not bound. -/
  | assignment {n : String} {v : Expr} {span : Option Span} {x : Value}
      (he : stmt.effect? = some (.assign n v span)) (hv : valueOf s.env.lookup depth v = .ok x)
      (hn : s.env.assign? n x = none) (hf : f = ⟨.unbound n, span, none⟩)
  /-- Its condition has a value that is no truth value. -/
  | condition {c : Expr} {body : Stmt} {span : Option Span} {v : Value} {t : Session}
      (hstmt : stmt = .branch c body span) (hc : evaluate depth c s = (.ok v, t))
      (htrue : v ≠ .text "True") (hfalse : v ≠ .text "False")
      (hf : f = ⟨.notBoolean v.described, c.span, none⟩)

theorem StopsAt.because {rounds depth : Nat} {stmt : Stmt} {s : Session} {f : Failure}
    (h : StopsAt rounds (depth + 1) stmt s (.failure f)) : StopsAt.Because depth stmt s f := by
  cases h with
  | express h =>
    rcases evaluate_error_cases h with h | ⟨n, v, span, x, rfl, hv, hn, hf⟩
    · exact .value rfl h
    · exact .assignment rfl hv hn (Stop.failure.inj hf)
  | declare h => exact .value rfl h
  | speak h => exact .value rfl h
  | condition h =>
    rcases evaluate_error_cases h with h | ⟨n, v, span, x, rfl, hv, hn, hf⟩
    · exact .value rfl h
    · exact .assignment rfl hv hn (Stop.failure.inj hf)
  | truth hc h =>
    obtain ⟨htrue, hfalse, hf⟩ := truth_eq_error_iff.mp h
    exact .condition rfl hc htrue hfalse (Stop.failure.inj hf)

end DialogueScript
