import DialogueScript.Command.Perform
import DialogueScript.Document.Content

/-!
# The program

Model of `main`.

Reads the script and the settings file that a command line names, the environment and the input, and
prints what the command prints.
-/

namespace DialogueScript.Outside

open Command

/-- How the program is called. -/
def usage : String :=
  "usage: [-v] check FILE [--json]\n" ++
  "       [-v] tokens FILE\n" ++
  "       [-v] ast FILE\n" ++
  "       [-v] run FILE [-c PATH] [--legacy] [--scoping lexical|merge]\n" ++
  "                [--value-storage tagged|text] [--continue-on-error]\n"

/-- How far this program gets. -/
def limits : Limits where
  nesting := 500
  depth := 2000
  rounds := 1 <<< 62
  height := 490

/-- What is found at a path on this computer. -/
def entryAt (path : Path) : IO Entry := do
  try
    return .file (← IO.FS.readFile path.text)
  catch
    | .inappropriateType .. => return .folder
    | _ => return .missing

/-- The variables of the environment that settings may come from. -/
def environment : IO Variables := do
  let names := Sources.pathVariable :: Key.all.map Key.environmentName
  let found ← names.mapM fun n => return (← IO.getEnv n).map fun w => (n, w)
  return found.filterMap id

/-- The paths that a command reads. -/
def pathsOf (i : Invocation) (vars : Variables) : List Path :=
  let settings := match i.action with
    | .run options => (options.sources vars).file?
    | _ => none
  Path.ofText i.file :: settings.toList

/-- What the program prints when it is called with some words. -/
def transcript (words : List String) : IO Transcript := do
  match Invocation.ofWords words with
  | .error h => return { ending := .halted h }
  | .ok i =>
    let vars ← environment
    let entries ← (pathsOf i vars).mapM fun p => return (p, ← entryAt p)
    let input ← match i.action with
      | .run _ => (← IO.getStdin).readToEnd
      | _ => pure ""
    return perform limits Document.ofText (fun p => (entries.lookup p).getD .missing) vars input i

/-- Prints a transcript; the result is the exit code. -/
def present (t : Transcript) : IO UInt32 := do
  IO.print t.out
  IO.eprint t.err
  match t.ending with
  | .code n => return n.toUInt32
  | .halted .help =>
    IO.print usage
    return 0
  | .halted .misuse =>
    IO.eprint usage
    return 2
  | .folder path =>
    IO.eprintln (SourceFault.folder path).message
    return 1
  | .tooHigh =>
    IO.eprintln "the syntax tree has too many levels to be drawn"
    return 1
  | .unreadable why =>
    IO.eprintln why
    return 1
  | .crash c =>
    IO.eprintln c.message
    return 1

end DialogueScript.Outside

def main (words : List String) : IO UInt32 := do
  DialogueScript.Outside.present (← DialogueScript.Outside.transcript words)
