import DialogueScript.Run.Stop
import DialogueScript.Syntax

/-!
# What operators do

Model of `apply_operator`, `_numeric_operands` and `Value.as_number`.

Two numbers are added, two texts too if both are numbers, and all else is joined as text.  The
other arithmetic wants numbers, or texts that are numbers.  Numbers are equal as numbers, all else
as text.

* `Operator.apply` — the value of an operation, or why it has none;
* `apply_equals` — equality always has a value, one of the two truth texts.
-/

namespace DialogueScript

/-- Reads a value as a number; a text that only passes for one ends the run.  Model of
`Value.as_number`. -/
def Value.number? (v : Value) : Except Stop (Option Float) :=
  match v, v.reading with
  | _, .number x => .ok (some x)
  | _, .noNumber => .ok none
  | .text s, .unreadable => .error (.crash (.unreadable s))
  | .number _, .unreadable => .ok none

/-- Reads two values as numbers, the left one first. -/
def Value.numbers? (l r : Value) : Except Stop (Option (Float × Float)) := do
  let x ← l.number?
  let y ← r.number?
  match x, y with
  | some x, some y => return some (x, y)
  | _, _ => return none

namespace Operator

/-- Both operands as numbers, as arithmetic needs them.  Model of `_numeric_operands`. -/
def operands (op : Operator) (l r : Value) (span : Option Span) : Except Stop (Float × Float) := do
  match ← Value.numbers? l r with
  | some xy => return xy
  | none => throw (.failure ⟨.typeMismatch op.symbol l.display r.display, span, none⟩)

def add (l r : Value) : Except Stop Value :=
  match l, r with
  | .number x, .number y => .ok (.number (x + y))
  | .text s, .text t => do
    match ← Value.numbers? l r with
    | some (x, y) => return .number (x + y)
    | none => return .text (s ++ t)
  | _, _ => .ok (.text (l.display ++ r.display))

def equal (l r : Value) : Bool :=
  match l, r with
  | .number x, .number y => x == y
  | _, _ => l.display == r.display

/-- The value of an operation; `span` is where a failure is reported.  Model of `apply_operator`. -/
def apply (op : Operator) (l r : Value) (span : Option Span) : Except Stop Value :=
  match op with
  | plus => add l r
  | minus => do
    let (x, y) ← operands op l r span
    return .number (x - y)
  | times => do
    let (x, y) ← operands op l r span
    return .number (x * y)
  | dividedBy => do
    let (x, y) ← operands op l r span
    if y == 0 then throw (.failure ⟨.divisionByZero, span, none⟩)
    return .number (x / y)
  | equals => .ok (.ofBool (equal l r))
  | unknown shown => .error (.failure ⟨.missingOperator shown, span, none⟩)

theorem apply_equals (l r : Value) (span : Option Span) :
    apply equals l r span = .ok (.text "True") ∨ apply equals l r span = .ok (.text "False") := by
  cases h : equal l r <;> simp [apply, Value.ofBool, h]

end Operator

end DialogueScript
