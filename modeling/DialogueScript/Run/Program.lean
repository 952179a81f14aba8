import DialogueScript.Run.Execute
import DialogueScript.Syntax.Parse

/-!
# Runs of programs

Model of `run_program`, `compile_and_run` and `ExecutionResult`.

The statements of a program are executed one after the other.  A failure ends the run or, if the
policy is to proceed, is put on record before the next statement; enough failures end the run in
any case.

* `Program.runFrom` — a run in the middle of a program;
* `Program.run`, `Script.run` — a whole program, and a whole script from its text on;
* `Outcome` — how a run ended.
-/

namespace DialogueScript

/-- How a run ended that was not cut off.  Model of `ExecutionResult`. -/
structure Outcome where
  /-- Whether an exit ended it. -/
  exited : Bool := false
  failures : List Failure := []
  deriving DecidableEq, Repr

namespace Outcome

def success (o : Outcome) : Bool := o.failures.isEmpty

def exitCode (o : Outcome) : Nat := if o.success then 0 else 1

/-- The message of the first failure.  Model of `_first_message`. -/
def message? (o : Outcome) : Option String := o.failures.head?.map (·.fault.message)

end Outcome

/-- So many failures end a run. -/
def failureLimit : Nat := 20

/-- A failure with its source line, where the text is known.  Model of `_attach_source_line`. -/
def Failure.quoting (f : Failure) (source : Option String) : Failure :=
  match source, f.span, f.sourceLine with
  | some text, some span, none => { f with sourceLine := Text.excerptLine? text span.start.line }
  | _, _, _ => f

namespace Program

/-- Whether a run ends after the failures it has on record. -/
def enough (policy : ErrorPolicy) (failures : List Failure) : Bool :=
  policy == .abort || decide (failureLimit ≤ failures.length)

/-- Runs the statements that are left, with the failures so far. -/
def runFrom (policy : ErrorPolicy) (source : Option String) (limits : Limits) :
    List Stmt → List Failure → Session → Except Crash Outcome × Session
  | [], failures, s => (.ok ⟨false, failures⟩, s)
  | stmt :: rest, failures, s =>
    let go (failure : Failure) (s : Session) :=
      let failure := failure.quoting source
      let failures := failures ++ [failure]
      if enough policy failures then (.ok ⟨false, failures⟩, s)
      else runFrom policy source limits rest failures (s.record (.recovered failure.fault.code))
    match execute limits.rounds limits.depth stmt s with
    | (s, none) => runFrom policy source limits rest failures s
    | (s, some .exit) => (.ok ⟨true, failures⟩, s)
    | (s, some (.crash c)) => (.error c, s)
    | (s, some (.failure f)) => go f s
    | (s, some .tooDeep) => go ⟨.runTooDeep, stmt.span, none⟩ s

/-- Runs a program on an input; failures quote `source`, if it is given.  Model of `run_program`. -/
def run (p : Program) (limits : Limits) (settings : Settings) (source : Option String)
    (input : String) : Except Crash Outcome × Session :=
  runFrom settings.policy source limits p [] (.start settings input)

end Program

/-- The same script with the number literals that the settings allow. -/
def Script.withSettings (s : Script) (settings : Settings) : Script :=
  { s with integers := settings.integers }

/-- Parses and runs a script.  A script that cannot be parsed is not run.  Model of
`compile_and_run`. -/
def Script.run (s : Script) (limits : Limits) (settings : Settings) (input : String) :
    Except Crash Outcome × Session :=
  match (s.withSettings settings).parse limits with
  | .error f => (.ok ⟨false, [f]⟩, .start settings input)
  | .ok p => Program.run p limits settings (some s.text) input

end DialogueScript
