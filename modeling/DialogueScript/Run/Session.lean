import DialogueScript.Run.Stop
import DialogueScript.Scope.Environment
import DialogueScript.Text.Lines

/-!
# Sessions

Model of the state of an `Interpreter`, and of `_execute_input` and the printing in
`_execute_speak`.

What a run works on: its variables, the lines it can still read, what it has printed, and a record
of events for whoever wants to watch.

* `Session.push`, `Session.pop` — entering and leaving a frame, both recorded;
* `Session.readLine` — the next line of input, the empty text when there is none;
* `Session.print` — one more line of output.
-/

namespace DialogueScript

inductive Event where
  | pushed (frame : String) (depth : Nat)
  | merged (names : List String)
  | popped (frame : String) (depth : Nat)
  | endOfInput (name : String)
  | exitReached
  | recovered (code : String)
  deriving DecidableEq, Repr

structure Session where
  env : Environment := {}
  input : List String := []
  output : String := ""
  /-- The latest event first. -/
  events : List Event := []
  deriving DecidableEq

namespace Session

/-- A session before anything has happened. -/
def start (settings : Settings) (input : String) : Session where
  env := { scoping := settings.scoping, storage := settings.storage }
  input := Text.inputLines input

def record (s : Session) (e : Event) : Session := { s with events := e :: s.events }

def push (s : Session) (name : String) : Session :=
  let env := s.env.push name
  { s with env }.record (.pushed name env.depth)

/-- Leaves the innermost frame; the outermost one stays. -/
def pop (s : Session) : Session :=
  match s.env.pop? with
  | none => s
  | some p =>
    let s := { s with env := p.env }
    let s := if p.carried.isEmpty then s else s.record (.merged (p.carried.sorted.map (·.1)))
    s.record (.popped p.frame.name p.env.depth)

def define (s : Session) (n : String) (v : Value) : Session := { s with env := s.env.define n v }

/-- Reads the next line into a variable.  Model of `_execute_input`. -/
def readLine (s : Session) (n : String) : Session :=
  match s.input with
  | [] => (s.record (.endOfInput n)).define n (.text "")
  | line :: rest => { s with input := rest }.define n (.text line)

def print (s : Session) (line : String) : Session := { s with output := s.output ++ line ++ "\n" }

theorem push_output (s : Session) (name : String) : (s.push name).output = s.output := rfl

theorem readLine_output (s : Session) (n : String) : (s.readLine n).output = s.output := by
  unfold readLine
  split <;> rfl

end Session

end DialogueScript
