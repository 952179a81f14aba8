import DialogueScript.Location
import DialogueScript.Text.Quoted

/-!
# Diagnostics

Model of `Diagnostic`, `ErrorKind`, `DslError` and the functions from `error_invalid_token` to
`error_evaluation_too_deep` that make the errors.

What is reported about a script: a code, a message, possibly the place and the source line it is
about, and hints.

* `Diagnostic.text` — a header, the source line with carets under the place, then the hints;
* `Fault` — the causes of all errors of the language, each with its code, kind, message and hints;
* `Failure` — a fault at a place, and `Failure.diagnostic`, its report.
-/

namespace DialogueScript

structure Diagnostic where
  code : String
  message : String
  span : Option Span := none
  sourceLine : Option String := none
  hints : List String := []
  deriving DecidableEq, Repr

namespace Diagnostic

def header (d : Diagnostic) : String :=
  let place := match d.span with
    | some s => s.startText ++ ": "
    | none => ""
  s!"{place}error[{d.code}]: {d.message}"

/-- How many carets stand under a place: its width, to the end of the line if it goes on beyond,
and at least one. -/
def caretCount (s : Span) (line : String) : Nat :=
  let stop := if s.start.line = s.stop.line then s.stop.column else line.length + 1
  max 1 (stop - s.start.column)

/-- The source line, numbered, and the carets below it. -/
def excerpt (s : Span) (line : String) : List String :=
  let number := String.ofList ((toString s.start.line).toList.leftpad 3 ' ')
  let indent := String.ofList (List.replicate (s.start.column - 1) ' ')
  let carets := String.ofList (List.replicate (caretCount s line) '^')
  ["  |", s!"{number} | {line}", s!"    | {indent}{carets}"]

/-- The lines of a report, with or without the source line. -/
def lines (d : Diagnostic) (showSource : Bool) : List String :=
  let source := match showSource, d.span, d.sourceLine with
    | true, some s, some line => excerpt s line
    | _, _, _ => []
  d.header :: source ++ d.hints.map fun h => s!"    = hint: {h}"

/-- Model of `Diagnostic.format`. -/
def text (d : Diagnostic) (showSource : Bool) : String := "\n".intercalate (d.lines showSource)

end Diagnostic

/-- The kinds of error. -/
inductive FaultKind where
  | lexical
  | parse
  | unbound
  | typeMismatch
  | divisionByZero
  | notBoolean
  | chainedAssignment
  | missingOperator
  | tooDeep
  deriving DecidableEq, Repr

def FaultKind.label : FaultKind → String
  | .lexical => "lexical-error"
  | .parse => "parse-error"
  | .unbound => "unbound-variable"
  | .typeMismatch => "type-mismatch"
  | .divisionByZero => "division-by-zero"
  | .notBoolean => "non-boolean-condition"
  | .chainedAssignment => "illegal-chained-assignment"
  | .missingOperator => "missing-operator"
  | .tooDeep => "nesting-too-deep"

/-- What can be wrong with a script or a run of it. -/
inductive Fault where
  /-- A piece of text is no token. -/
  | badToken (lexeme : String)
  | unexpectedToken (expected found : String)
  | unexpectedEnd (expected : String)
  /-- The keyword for functions is reserved, but there are no functions. -/
  | functionDeclared
  | parseTooDeep
  | unbound (name : String)
  | typeMismatch (operator left right : String)
  | divisionByZero
  /-- A condition is neither of the two texts for truth and falsehood. -/
  | notBoolean (found : String)
  /-- An assignment stands where a value is needed. -/
  | chainedAssignment (name : String)
  | missingOperator (found : String)
  | runTooDeep
  deriving DecidableEq, Repr

namespace Fault

def kind : Fault → FaultKind
  | badToken _ => .lexical
  | unexpectedToken _ _ | unexpectedEnd _ | functionDeclared | parseTooDeep => .parse
  | unbound _ => .unbound
  | typeMismatch _ _ _ => .typeMismatch
  | divisionByZero => .divisionByZero
  | notBoolean _ => .notBoolean
  | chainedAssignment _ => .chainedAssignment
  | missingOperator _ => .missingOperator
  | runTooDeep => .tooDeep

def code : Fault → String
  | badToken _ => "E001"
  | unexpectedToken _ _ => "E101"
  | unexpectedEnd _ => "E102"
  | functionDeclared => "E103"
  | parseTooDeep => "E104"
  | unbound _ => "E401"
  | typeMismatch _ _ _ => "E402"
  | divisionByZero => "E403"
  | notBoolean _ => "E404"
  | chainedAssignment _ => "E405"
  | missingOperator _ => "E406"
  | runTooDeep => "E407"

def message : Fault → String
  | badToken lexeme => s!"invalid token '{lexeme}'"
  | unexpectedToken expected found => s!"expected {expected}, found {found}"
  | unexpectedEnd expected => s!"unexpected end of file, expected {expected}"
  | functionDeclared => "function declarations are not supported"
  | parseTooDeep => "program is nested too deeply to parse"
  | unbound name => s!"variable '{name}' cannot be found"
  | typeMismatch operator left right =>
    s!"operator '{operator}' needs numeric operands, found {Text.quoted left} and " ++
      Text.quoted right
  | divisionByZero => "division by zero is not allowed"
  | notBoolean found => s!"condition must be \"True\" or \"False\", found {found}"
  | chainedAssignment name => s!"chained assignment to '{name}' is not permitted"
  | missingOperator found => s!"need an operator, found {found}"
  | runTooDeep => "statement is nested too deeply to evaluate"

def hints : Fault → List String
  | functionDeclared => ["'fn' is a reserved keyword; inline the statements instead"]
  | unbound name => [s!"declare it first with 'global {name} = ...;'"]
  | chainedAssignment _ => ["assignment may only appear as a statement of its own"]
  | _ => []

end Fault

/-- A fault, where it happened, and the source line there. -/
structure Failure where
  fault : Fault
  span : Option Span := none
  sourceLine : Option String := none
  deriving DecidableEq, Repr

def Failure.diagnostic (f : Failure) : Diagnostic where
  code := f.fault.code
  message := f.fault.message
  span := f.span
  sourceLine := f.sourceLine
  hints := f.fault.hints

end DialogueScript
