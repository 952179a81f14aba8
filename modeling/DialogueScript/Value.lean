import DialogueScript.Number.Layout
import DialogueScript.Number.Numeral
import DialogueScript.Text.Quoted

/-!
# Values

Model of `Value`, `number_val`, `string_val`, `bool_val` and `literal_val`.

A value is a number or a text.  There are no truth values: conditions are the texts `True` and
`False`.

* `Value.display` — the text of a value;
* `Value.reading` — the number of a value, if its text is one;
* `Value.same` — equality of values, by which the two zeros are the same number and a number that
  is none differs from itself;
* `Value.same_text` — equality of texts is equality.
-/

namespace DialogueScript

inductive Value where
  | number (x : Float)
  | text (s : String)
  deriving DecidableEq

namespace Value

/-- Model of `Value.display`. -/
def display : Value → String
  | number x => Number.display x
  | text s => s

/-- Model of `Value.as_number`. -/
def reading : Value → Number.Reading
  | number x => .number x
  | text s => Number.readNumber s

def isNumber : Value → Bool
  | number _ => true
  | text _ => false

/-- The text that stands for a truth value.  Model of `bool_val`. -/
def ofBool (b : Bool) : Value := .text (if b then "True" else "False")

/-- The content of a value as messages show it. -/
def content : Value → String
  | number x => Number.dump x
  | text s => Text.quoted s

def kindLabel (v : Value) : String := if v.isNumber then "NUMBER" else "STRING"

/-- A value with its kind.  Model of `Value.__repr__`. -/
def dump (v : Value) : String := s!"Value({v.content}, {v.kindLabel})"

/-- Equality of values; numbers are compared as numbers.  Model of `Value.__eq__`. -/
def same : Value → Value → Bool
  | number x, number y => x == y
  | text s, text t => s == t
  | _, _ => false

theorem same_text {s t : String} : same (text s) (text t) = true ↔ s = t := by
  simp [same]

end Value

end DialogueScript
