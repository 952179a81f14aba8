import DialogueScript.Diagnostic

/-!
# How a run can stop

Model of `ExitSignal` and of the errors that end the execution of a statement.

A run stops at an exit, at a failure of the script, when a statement has too many levels, or when
something happens that the language has no error for.

* `Crash.message` — what is reported about the last of these.
-/

namespace DialogueScript

/-- What no error of the language covers. -/
inductive Crash where
  /-- A text passes for a number and cannot be read as one. -/
  | unreadable (text : String)
  /-- An expression where a statement should be. -/
  | strayStatement (label : String)
  /-- A statement where an expression should be. -/
  | strayExpression (label : String)
  /-- A loop made all rounds it was given. -/
  | endless
  deriving DecidableEq, Repr

def Crash.message : Crash → String
  | unreadable text => s!"could not convert string to float: {Text.quoted text}"
  | strayStatement label => s!"Unknown statement type: {label}"
  | strayExpression label => s!"Unknown expression type: {label}"
  | endless => "endless loop"

/-- Why an evaluation or an execution stops. -/
inductive Stop where
  | exit
  | failure (f : Failure)
  | tooDeep
  | crash (c : Crash)
  deriving DecidableEq, Repr

end DialogueScript
