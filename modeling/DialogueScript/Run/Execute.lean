import DialogueScript.Run.Evaluate
import DialogueScript.Run.Session

/-!
# Execution of statements

Model of `Interpreter.execute` and `Interpreter.evaluate`.

A statement changes a session and either completes or stops the run.  A block has a frame of its
own.  When the block completes the frame is left; when it stops, the frames above it are dropped.
A loop goes on until something stops it.

* `runAll` — statements one after the other, up to the first that stops;
* `repeatStep` — a loop of at most so many rounds;
* `execute` — one statement inside a number of levels;
* `evaluate` — an expression as a statement or a condition, where it may be an assignment.
-/

namespace DialogueScript

/-- A session after a step, and why the step stopped, if it did. -/
abbrev Progress := Session × Option Stop

/-- What an assignment is worth where it is a condition or a statement. -/
def assigned : Value := .text "Succeeded"

/-- Evaluates an expression that may be an assignment.  Model of `Interpreter.evaluate`. -/
def evaluate (depth : Nat) (e : Expr) (s : Session) : Except Stop Value × Session :=
  match e with
  | .assign n v span =>
    match valueOf s.env.lookup depth v with
    | .error why => (.error why, s)
    | .ok x =>
      match s.env.assign? n x with
      | some env => (.ok assigned, { s with env })
      | none => (.error (.failure ⟨.unbound n, span, none⟩), s)
  | e => (valueOf s.env.lookup depth e, s)

/-- The text of an expression where a value is needed.  Model of `Interpreter.display`. -/
def displayOf (depth : Nat) (e : Expr) (s : Session) : Except Stop String :=
  (valueOf s.env.lookup depth e).map Value.display

/-- Whether a condition holds.  Model of the tests in `_execute_branch`. -/
def truth (condition : Value) (span : Option Span) : Except Stop Bool :=
  match condition with
  | .text s =>
    if s = "True" then .ok true
    else if s = "False" then .ok false
    else .error (.failure ⟨.notBoolean (Text.quoted s), span, none⟩)
  | .number x => .error (.failure ⟨.notBoolean s!"number {Number.display x}", span, none⟩)

def runAll (step : Stmt → Session → Progress) : List Stmt → Session → Progress
  | [], s => (s, none)
  | stmt :: rest, s =>
    match step stmt s with
    | (s, none) => runAll step rest s
    | (s, some why) => (s, some why)

/-- Model of `_execute_loop`. -/
def repeatStep (step : Session → Progress) : Nat → Session → Progress
  | 0, s => (s, some (.crash .endless))
  | rounds + 1, s =>
    match step s with
    | (s, none) => repeatStep step rounds s
    | (s, some why) => (s, some why)

/-- Does `step` in a frame of its own.  Model of `Environment.new_scope`. -/
def inFrame (step : Session → Progress) (s : Session) : Progress :=
  match step (s.push "block") with
  | (t, none) => (t.pop, none)
  | (t, some why) => ({ t with env := t.env.unwindTo s.env.depth }, some why)

/-- Executes a statement inside `depth` levels; no loop makes more than `rounds` rounds.  Model of
`Interpreter.execute`. -/
def execute (rounds : Nat) : Nat → Stmt → Session → Progress
  | 0, _, s => (s, some .tooDeep)
  | depth + 1, stmt, s =>
    match stmt with
    | .block body _ => inFrame (runAll (execute rounds depth) body) s
    | .express e _ =>
      match evaluate depth e s with
      | (.ok _, s) => (s, none)
      | (.error why, s) => (s, some why)
    | .declare n e _ =>
      match valueOf s.env.lookup depth e with
      | .ok v => (s.define n v, none)
      | .error why => (s, some why)
    | .speak e _ =>
      match displayOf depth e s with
      | .ok line => (s.print line, none)
      | .error why => (s, some why)
    | .input n _ => (s.readLine n, none)
    | .branch c body _ =>
      match evaluate depth c s with
      | (.error why, s) => (s, some why)
      | (.ok v, s) =>
        match truth v c.span with
        | .ok true => execute rounds depth body s
        | .ok false => (s, none)
        | .error why => (s, some why)
    | .loop body _ => repeatStep (execute rounds depth body) rounds s
    | .exit _ => (s.record .exitReached, some .exit)
    | .stray label _ => (s, some (.crash (.strayStatement label)))

theorem runAll_append (step : Stmt → Session → Progress) (p q : List Stmt) (s : Session) :
    runAll step (p ++ q) s =
      match runAll step p s with
      | (s, none) => runAll step q s
      | (s, some why) => (s, some why) := by
  induction p generalizing s with
  | nil => rfl
  | cons stmt rest ih =>
    simp only [List.cons_append, runAll]
    split
    · exact ih _
    · rfl

end DialogueScript
