/-!
# Folders and paths

A path is a text with slashes; slashes in a row count as one, and steps that stay where they are
are left out.  A folder is a set of files, each by its path from the folder.

* `Path.ofText`, `Path.text` — reading and writing paths;
* `Folder.look` — what is found at the end of a path;
* `splitSteps_append` — a slash ends a step, whatever follows it.
-/

namespace DialogueScript

structure Path where
  /-- The slashes in front of a path that does not start in the folder at hand. -/
  root : String := ""
  steps : List String := []
  deriving DecidableEq, Repr

namespace Path

/-- The pieces of a text between slashes. -/
def splitSteps : List Char → List (List Char)
  | [] => [[]]
  | c :: rest =>
    if c == '/' then [] :: splitSteps rest
    else match splitSteps rest with
      | [] => [[c]]
      | step :: steps => (c :: step) :: steps

/-- Two slashes in front are kept, one or more than two are one. -/
def rootOf (cs : List Char) : String :=
  match (cs.takeWhile (· == '/')).length with
  | 0 => ""
  | 2 => "//"
  | _ => "/"

def ofText (s : String) : Path where
  root := rootOf s.toList
  steps := ((splitSteps s.toList).map String.ofList).filter fun step => step ≠ "" && step ≠ "."

def text (p : Path) : String :=
  if p.root = "" && p.steps.isEmpty then "." else p.root ++ "/".intercalate p.steps

/-- The last step. -/
def name (p : Path) : String := p.steps.getLast?.getD ""

theorem splitSteps_ne_nil (cs : List Char) : splitSteps cs ≠ [] := by
  cases cs with
  | nil => simp [splitSteps]
  | cons c rest =>
    unfold splitSteps
    split
    · simp
    · split <;> simp

theorem splitSteps_append {a : List Char} (b : List Char) (h : '/' ∉ a) :
    splitSteps (a ++ '/' :: b) = a :: splitSteps b := by
  induction a with
  | nil => simp [splitSteps]
  | cons c a ih =>
    have hc : c ≠ '/' := fun e => h (by simp [e])
    simp [splitSteps, hc, ih fun hm => h (by simp [hm])]

end Path

/-- What is found at the end of a path. -/
inductive Entry where
  | file (text : String)
  | folder
  | missing
  /-- A step on the way is a file. -/
  | notAFolder
  deriving DecidableEq, Repr

/-- Files by path, with their texts. -/
structure Folder where
  files : List (String × String) := []
  deriving DecidableEq, Repr

namespace Folder

/-- What stands at a row of steps that has no step upwards. -/
def at? (f : Folder) (steps : List String) : Entry :=
  match f.files.find? fun e => (Path.ofText e.1).steps == steps with
  | some e => .file e.2
  | none =>
    if f.files.any fun e => steps.isPrefixOf (Path.ofText e.1).steps then .folder else .missing

/-- Follows a path step by step; `here` are the steps taken so far, the last one first.  Nothing is
known about what lies around the folder. -/
def walk (f : Folder) : List String → List String → Entry
  | _, [] => .folder
  | here, step :: rest =>
    if step = ".." then
      match here with
      | _ :: back => f.walk back rest
      | [] => if rest.all (· == "..") then .folder else .missing
    else
      match f.at? (here.reverse ++ [step]) with
      | .file text => if rest.isEmpty then .file text else .notAFolder
      | .folder => f.walk (step :: here) rest
      | other => other

/-- What is found at the end of a path that starts in the folder. -/
def look (f : Folder) (p : Path) : Entry :=
  if p.root = "" then f.walk [] p.steps
  else if p.steps.isEmpty then .folder
  else .missing

end Folder

end DialogueScript
