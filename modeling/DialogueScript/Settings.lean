/-!
# Settings

Model of `RuntimeConfig`, `RuntimeConfig.legacy` and the choices `ScopeMode`, `StorageMode` and
`ErrorPolicy`.

The four options of a run: how blocks treat the variables around them, how values are kept, what
happens after an error, and whether integers may be written without a point.

* `Settings.ofFirstRelease` — scopes that merge outwards and values kept as texts;
* `Scoping.ofWord?`, `Storage.ofWord?`, `ErrorPolicy.ofWord?` — the words for each choice.
-/

namespace DialogueScript

inductive Scoping where
  /-- A declaration ends with its block. -/
  | lexical
  /-- What a block bound is carried outwards when the block ends. -/
  | merge
  deriving DecidableEq, Repr

inductive Storage where
  /-- Numbers stay numbers. -/
  | tagged
  /-- Every value is kept as its text. -/
  | text
  deriving DecidableEq, Repr

inductive ErrorPolicy where
  /-- The first error ends the run. -/
  | abort
  /-- The run goes on with the next statement of the program. -/
  | proceed
  deriving DecidableEq, Repr

namespace Scoping

def all : List Scoping := [lexical, merge]

def word : Scoping → String
  | lexical => "lexical"
  | merge => "merge"

def ofWord? (w : String) : Option Scoping := all.find? (·.word == w)

theorem ofWord?_word (s : Scoping) : ofWord? s.word = some s := by cases s <;> decide

end Scoping

namespace Storage

def all : List Storage := [tagged, text]

def word : Storage → String
  | tagged => "tagged"
  | text => "text"

def ofWord? (w : String) : Option Storage := all.find? (·.word == w)

theorem ofWord?_word (s : Storage) : ofWord? s.word = some s := by cases s <;> decide

end Storage

namespace ErrorPolicy

def all : List ErrorPolicy := [abort, proceed]

def word : ErrorPolicy → String
  | abort => "abort"
  | proceed => "continue"

def ofWord? (w : String) : Option ErrorPolicy := all.find? (·.word == w)

theorem ofWord?_word (p : ErrorPolicy) : ofWord? p.word = some p := by cases p <;> decide

end ErrorPolicy

structure Settings where
  scoping : Scoping := .lexical
  storage : Storage := .tagged
  policy : ErrorPolicy := .abort
  integers : Bool := true
  deriving DecidableEq, Repr

/-- The settings that go with scripts for the first release. -/
def Settings.ofFirstRelease : Settings := { scoping := .merge, storage := .text }

end DialogueScript
