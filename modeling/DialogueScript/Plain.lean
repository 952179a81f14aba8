import DialogueScript.Number.Layout
import DialogueScript.Text.Quoted

/-!
# Plain data

The values of the mapping that `RuntimeConfig.merged` is given.

Data as a settings file or a caller may give it, before it is known to mean anything.

* `Plain.dump` — how it is shown in a message;
* `Plain.word` — its text where a word is wanted: texts as they are, all else as shown;
* `Plain.hasText` — whether it can be shown: an integer with too many digits cannot.
-/

namespace DialogueScript

inductive Plain where
  | null
  | bool (b : Bool)
  | int (n : Int)
  | float (x : Float)
  | text (s : String)
  | list (items : List Plain)
  | map (entries : List (Plain × Plain))
  /-- A member of a named set of choices, given as such and not by its value. -/
  | choice (set member value : String)
  /-- Data of another kind, such as a date or a set: its text as a word and in a message, whether it
  has these, and whether there is nothing in it. -/
  | other (asWord shown : String) (hasText isEmpty : Bool)

namespace Plain

mutual

/-- Data as it is shown in a message. -/
def dump : Plain → String
  | null => "None"
  | bool true => "True"
  | bool false => "False"
  | int n => toString n
  | float x => Number.dump x
  | text s => Text.quoted s
  | list items => "[" ++ ", ".intercalate (dumpItems items) ++ "]"
  | map entries => "\x7b" ++ ", ".intercalate (dumpEntries entries) ++ "\x7d"
  | choice set member value => "<" ++ set ++ "." ++ member ++ ": " ++ Text.quoted value ++ ">"
  | other _ shown _ _ => shown

def dumpItems : List Plain → List String
  | [] => []
  | item :: items => item.dump :: dumpItems items

def dumpEntries : List (Plain × Plain) → List String
  | [] => []
  | (key, value) :: entries => (key.dump ++ ": " ++ value.dump) :: dumpEntries entries

end

/-- Data where a word is wanted. -/
def word : Plain → String
  | text s => s
  | choice set member _ => set ++ "." ++ member
  | other asWord _ _ _ => asWord
  | p => p.dump

/-- The number of digits that an integer may have to be shown. -/
def digitLimit : Nat := 4300

mutual

/-- Whether it can be shown, and where a word is wanted be taken for one: plain data can unless
there is an integer with too many digits in it. -/
def hasText : Plain → Bool
  | int n => decide ((Nat.toDigits 10 n.natAbs).length ≤ digitLimit)
  | list items => itemsHaveText items
  | map entries => entriesHaveText entries
  | other _ _ hasText _ => hasText
  | _ => true

def itemsHaveText : List Plain → Bool
  | [] => true
  | item :: items => item.hasText && itemsHaveText items

def entriesHaveText : List (Plain × Plain) → Bool
  | [] => true
  | (key, value) :: entries => key.hasText && value.hasText && entriesHaveText entries

end

/-- Whether there is nothing in it: a document like this stands for an empty one. -/
def isEmpty : Plain → Bool
  | null | bool false | list [] | map [] => true
  | int n => n == 0
  | float x => x == 0
  | text s => s.isEmpty
  | other _ _ _ isEmpty => isEmpty
  | _ => false

end Plain

end DialogueScript
