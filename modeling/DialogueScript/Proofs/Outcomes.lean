import DialogueScript.Proofs.ParseResults

/-!
# Which runs have an outcome

A run of a script has an outcome, with all failures on record, unless it does not end or reads a
text as a number that only passes for one.

* `Program.Performs` — the operations that a run of a program performs, with their operands;
* `valueOf_eq_crash_iff`, `StopsAt.crash_iff` — expressions and statements crash exactly when such
  an operation does, apart from loops that do not end;
* `Program.run_eq_unreadable_iff` — a run ends without an outcome exactly when it performs an
  operation that reads a misspelt text;
* `Script.run_outcome_iff` — the same for whole scripts, whose failures are all on record otherwise.
-/

namespace DialogueScript

/-- The expression that is evaluated where an assignment may stand. -/
def Expr.sought : Expr → Expr
  | .assign _ v _ => v
  | e => e

/-- The expression that a statement itself evaluates. -/
def Stmt.sought? : Stmt → Option Expr
  | .express e _ | .branch e _ _ => some e.sought
  | .declare _ e _ | .speak e _ => some e
  | _ => none

/-- The run of a program on an input performs an operation on two values. -/
def Program.Performs (p : Program) (limits : Limits) (settings : Settings)
    (source : Option String) (input : String) (op : Operator) (l r : Value) : Prop :=
  ∃ root s depth stmt t e span,
    Executes settings.policy source limits p [] (.start settings input) root s ∧
    Comes limits.rounds limits.depth root s (depth + 1) stmt t ∧ stmt.sought? = some e ∧
    Operates t.env.lookup depth e op l r span

variable {limits : Limits} {P : Span → Prop}

/-! ## Expressions and statements -/

/-- An evaluation crashes exactly when an operation does that it comes to. -/
theorem valueOf_eq_crash_iff {lookup : String → Option Value} {depth : Nat} {e : Expr} {c : Crash}
    (he : e.Spanned P) : valueOf lookup depth e = .error (.crash c) ↔
      ∃ op l r span, Operates lookup depth e op l r span ∧
        op.apply l r span = .error (.crash c) := by
  constructor
  · intro h
    induction he generalizing depth with
    | assign =>
      cases depth with
      | zero => cases h
      | succ depth => cases h
    | @binary l r op s _ _ _ ihl ihr =>
      cases depth with
      | zero => cases h
      | succ depth =>
        rw [valueOf_binary] at h
        split at h
        · rename_i hl
          cases h
          obtain ⟨op', v, w, span, hop, hcrash⟩ := ihl hl
          exact ⟨op', v, w, span, .left hop, hcrash⟩
        · rename_i v hl
          split at h
          · rename_i hr
            cases h
            obtain ⟨op', v, w, span, hop, hcrash⟩ := ihr hr
            exact ⟨op', v, w, span, .right hl hop, hcrash⟩
          · rename_i w hr
            exact ⟨op, v, w, some s, .here hl hr, h⟩
    | literal =>
      cases depth with
      | zero => cases h
      | succ depth => cases h
    | @name n s _ =>
      cases depth with
      | zero => cases h
      | succ depth =>
        rw [valueOf_name] at h
        split at h <;> cases h
  · rintro ⟨op, l, r, span, hop, hcrash⟩
    exact hop.valueOf_eq hcrash

theorem evaluate_eq_crash_iff {depth : Nat} {e : Expr} {s : Session} {c : Crash} :
    (evaluate depth e s).1 = .error (.crash c) ↔
      valueOf s.env.lookup depth e.sought = .error (.crash c) := by
  cases e with
  | assign n v span =>
    rw [evaluate, Expr.sought]
    cases valueOf s.env.lookup depth v with
    | error why => rfl
    | ok x =>
      dsimp only
      cases s.env.assign? n x <;> simp
  | binary l op r span => rfl
  | literal v span => rfl
  | name n span => rfl
  | stray label fields => rfl

/-- Apart from loops and strays, a statement crashes by itself exactly when its expression does. -/
theorem StopsAt.crash_iff {rounds depth : Nat} {stmt : Stmt} {s : Session} {text : String} :
    StopsAt rounds (depth + 1) stmt s (.crash (.unreadable text)) ↔
      ∃ e, stmt.sought? = some e ∧
        valueOf s.env.lookup depth e = .error (.crash (.unreadable text)) := by
  constructor
  · intro h
    cases h with
    | express h => exact ⟨_, rfl, evaluate_eq_crash_iff.mp h⟩
    | declare h => exact ⟨_, rfl, h⟩
    | speak h => exact ⟨_, rfl, h⟩
    | condition h => exact ⟨_, rfl, evaluate_eq_crash_iff.mp h⟩
    | truth _ h =>
      unfold DialogueScript.truth at h
      split at h
      · split at h
        · cases h
        · split at h <;> cases h
      · cases h
  · rintro ⟨e, he, h⟩
    cases stmt with
    | express e' span =>
      cases he
      exact .express (evaluate_eq_crash_iff.mpr h)
    | branch c body span =>
      cases he
      exact .condition (evaluate_eq_crash_iff.mpr h)
    | declare n e' span =>
      cases he
      exact .declare h
    | speak e' span =>
      cases he
      exact .speak h
    | block body span => cases he
    | loop body span => cases he
    | input n span => cases he
    | exit span => cases he
    | stray label fields => cases he

theorem Expr.Spanned.sought {e : Expr} (h : e.Spanned P) : e.sought.Spanned P := by
  cases h with
  | assign hv _ => exact hv
  | binary hl hr hs => exact .binary hl hr hs
  | literal hs => exact .literal hs
  | name hs => exact .name hs

theorem Stmt.Spanned.sought? {stmt : Stmt} {e : Expr} (h : stmt.Spanned P)
    (he : stmt.sought? = some e) : e.Spanned P := by
  cases h with
  | express h _ =>
    cases he
    exact h.sought
  | branch h _ _ =>
    cases he
    exact h.sought
  | declare h _ =>
    cases he
    exact h
  | speak h _ =>
    cases he
    exact h
  | block => cases he
  | loop => cases he
  | input => cases he
  | exit => cases he

/-! ## Runs -/

namespace Program

variable {p : Program} {settings : Settings} {source : Option String} {input : String}

/-- A run without an outcome does not end, or reads a text that cannot be read. -/
theorem run_error_cases (hp : ∀ stmt ∈ p, stmt.Spanned P) {c : Crash}
    (h : (run p limits settings source input).1 = .error c) :
    c = .endless ∨ ∃ text, c = .unreadable text := by
  obtain ⟨stmt, t, hexec, hcrash⟩ := runFrom_eq_error_iff.mp h
  exact execute_within (hp stmt hexec.mem) hcrash

/-- **When a run cannot read a text.**  Exactly when an operation of the run stumbles over it. -/
theorem run_eq_unreadable_iff (hp : ∀ stmt ∈ p, stmt.Spanned P) {text : String} :
    (run p limits settings source input).1 = .error (.unreadable text) ↔
      ∃ op l r, p.Performs limits settings source input op l r ∧ op.Stumbles l r text := by
  constructor
  · intro h
    obtain ⟨root, s, hexec, hcrash⟩ := runFrom_eq_error_iff.mp h
    obtain ⟨depth, stmt, t, hcomes, hat⟩ := execute_stop_iff.mp hcrash
    cases depth with
    | zero => cases hat
    | succ depth =>
      obtain ⟨e, he, hval⟩ := StopsAt.crash_iff.mp hat
      have hspanned := (hcomes.spanned (hp root hexec.mem)).sought? he
      obtain ⟨op, l, r, span, hop, happly⟩ := (valueOf_eq_crash_iff hspanned).mp hval
      obtain ⟨text', htext, hstumbles⟩ := Operator.apply_eq_crash_iff.mp happly
      cases htext
      exact ⟨op, l, r, ⟨root, s, depth, stmt, t, e, span, hexec, hcomes, he, hop⟩, hstumbles⟩
  · rintro ⟨op, l, r, ⟨root, s, depth, stmt, t, e, span, hexec, hcomes, he, hop⟩, hstumbles⟩
    have happly : op.apply l r span = .error (.crash (.unreadable text)) :=
      Operator.apply_eq_crash_iff.mpr ⟨text, rfl, hstumbles⟩
    have hat : StopsAt limits.rounds (depth + 1) stmt t (.crash (.unreadable text)) :=
      StopsAt.crash_iff.mpr ⟨e, he, hop.valueOf_eq happly⟩
    exact runFrom_eq_error_iff.mpr ⟨root, s, hexec, hcomes.stop hat.stop⟩

/-- A run that ends has an outcome exactly when none of its operations reads a misspelt text. -/
theorem run_ok_iff (hp : ∀ stmt ∈ p, stmt.Spanned P) :
    ((run p limits settings source input).1 ≠ .error .endless →
        ∃ o, (run p limits settings source input).1 = .ok o) ↔
      ∀ op l r, p.Performs limits settings source input op l r → op.Reads l r →
        ¬ l.Misspelt ∧ ¬ r.Misspelt := by
  constructor
  · intro hends op l r hop hreads
    by_contra hmisspelt
    rw [not_and_or, not_not, not_not] at hmisspelt
    obtain ⟨text, hstumbles⟩ := Operator.exists_stumbles_iff.mpr ⟨hreads, hmisspelt⟩
    have hcrash := (run_eq_unreadable_iff hp).mpr ⟨op, l, r, hop, hstumbles⟩
    obtain ⟨o, ho⟩ := hends (by rw [hcrash]; simp)
    rw [hcrash] at ho
    cases ho
  · intro hnone hends
    cases hrun : (run p limits settings source input).1 with
    | ok o => exact ⟨o, rfl⟩
    | error c =>
      rcases run_error_cases hp hrun with rfl | ⟨text, rfl⟩
      · exact absurd hrun hends
      · obtain ⟨op, l, r, hop, hstumbles⟩ := (run_eq_unreadable_iff hp).mp hrun
        obtain ⟨hreads, hmisspelt⟩ := Operator.exists_stumbles_iff.mp ⟨text, hstumbles⟩
        obtain ⟨hl, hr⟩ := hnone op l r hop hreads
        exact absurd hmisspelt (not_or.mpr ⟨hl, hr⟩)

end Program

/-- **Which runs of a script have an outcome.**  Any failure to read the script is the outcome, and
any failure of a statement that is executed is on record in it.  A run that ends has an outcome
exactly when no operation it performs reads a misspelt text, and an operation on any two values
crashes exactly when it reads one. -/
theorem Script.run_outcome_iff (s : Script) (limits : Limits) (settings : Settings)
    (input : String) :
    (∀ (op : Operator) l r span, (∃ c, op.apply l r span = .error (.crash c)) ↔
      op.Reads l r ∧ (l.Misspelt ∨ r.Misspelt)) ∧
    (∀ f, (s.withSettings settings).parse limits = .error f →
      (s.run limits settings input).1 = .ok ⟨false, [f]⟩) ∧
    ∀ p, (s.withSettings settings).parse limits = .ok p →
      (((s.run limits settings input).1 ≠ .error .endless →
          ∃ o, (s.run limits settings input).1 = .ok o) ↔
        ∀ op l r, p.Performs limits settings (some s.text) input op l r → op.Reads l r →
          ¬ l.Misspelt ∧ ¬ r.Misspelt) ∧
      ∀ root t u why f o,
        Program.Executes settings.policy (some s.text) limits p [] (.start settings input)
          root t →
        execute limits.rounds limits.depth root t = (u, some why) → why.failure? root = some f →
        (s.run limits settings input).1 = .ok o → f.quoting (some s.text) ∈ o.failures := by
  refine ⟨fun op l r span => ?_, fun f hf => ?_, fun p hp => ?_⟩
  · rw [← Operator.exists_stumbles_iff]
    constructor
    · rintro ⟨c, hc⟩
      obtain ⟨text, -, hstumbles⟩ := Operator.apply_eq_crash_iff.mp hc
      exact ⟨text, hstumbles⟩
    · rintro ⟨text, hstumbles⟩
      exact ⟨_, Operator.apply_eq_crash_iff.mpr ⟨text, rfl, hstumbles⟩⟩
  · rw [run, hf]
  · have hrun : s.run limits settings input = p.run limits settings (some s.text) input := by
      rw [run, hp]
    have hspanned : ∀ stmt ∈ p, stmt.Spanned (Span.Marked fun _ => True) :=
      parse_spanned trivial (fun _ _ => ⟨trivial, trivial⟩) ⟨trivial, trivial⟩ hp
    rw [hrun]
    refine ⟨Program.run_ok_iff hspanned, ?_⟩
    intro root t u why f o hexec hstep hf ho
    exact Program.runFrom_reports hexec hstep hf ho

/-- A script that subtracts from a word for infinity with a dotless `i`. -/
def dotlessScript : Script := { text := "speak \"\u0131nf\" - \"1\";" }

/-- The word passes for a number, so the run ends neither with a value nor with a failure. -/
theorem dotlessScript_run :
    (dotlessScript.run .small {} "").1 = .error (.unreadable "\u0131nf") := by
  decide +kernel

end DialogueScript
