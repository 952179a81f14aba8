import DialogueScript.Command.Invocation
import DialogueScript.Command.Log
import DialogueScript.Diagnostic.Summary
import DialogueScript.Run.Program
import DialogueScript.Syntax.Outline
import DialogueScript.Token.Stream

/-!
# Commands

Model of `cmd_check`, `cmd_tokens`, `cmd_ast` and `cmd_run`, with `_read_source`.

What a command prints, and how it ends.

* `check` — whether a script can be parsed;
* `listTokens`, `drawTree` — its tokens, and its syntax tree;
* `runFile` — running it;
* `perform` — the command that a command line stands for.
-/

namespace DialogueScript.Command

/-- How a command ends. -/
inductive Ending where
  | code (n : Nat)
  /-- The command line was not carried out. -/
  | halted (h : Halt)
  /-- The script is a folder. -/
  | folder (path : Path)
  /-- The syntax tree has too many levels to be drawn. -/
  | tooHigh
  /-- What is given for a setting cannot be shown, or stands for no data. -/
  | unreadable (why : String)
  | crash (c : Crash)
  deriving DecidableEq, Repr

/-- What a command printed, on its two channels. -/
structure Transcript where
  out : String := ""
  err : String := ""
  ending : Ending := .code 0
  deriving DecidableEq, Repr

namespace Transcript

/-- A transcript that ends with a code. -/
def ofCode (n : Nat) (out err : String) : Transcript := { out, err, ending := .code n }

/-- An error of the command itself. -/
def ofError (message : String) : Transcript := .ofCode 1 "" s!"Error: {message}\n"

/-- The same transcript, with `log` before everything on the channel for errors. -/
def after (t : Transcript) (log : String) : Transcript := { t with err := log ++ t.err }

end Transcript

/-- One diagnostic, with its source line. -/
def failureText (f : Failure) : String := f.diagnostic.text true ++ "\n"

/-- All diagnostics and their number. -/
def reportText (r : Report) : String := r.text true ++ "\n"

/-- The text of a script, if there is one, for a command that goes on with it.  Model of
`_read_source`. -/
def withText (look : Path → Entry) (file : String) (go : String → Transcript) : Transcript :=
  let path := Path.ofText file
  match look path with
  | .file text => go (Text.plainLineEnds text)
  | .folder => { ending := .folder path }
  | .missing | .notAFolder => .ofError s!"File not found: {path.text}"

/-- The script with a text and the name of its file. -/
def scriptOf (file text : String) : Script := { text, file := some file }

/-- Model of `cmd_check`. -/
def check (limits : Limits) (json : Bool) (file text : String) : Transcript :=
  let (statements, report) : Nat × Report := match (scriptOf file text).parse limits with
    | .ok p => (p.length, {})
    | .error f => (0, ({} : Report).add f.diagnostic)
  let code := if report.size = 0 then 0 else 1
  let entries := [("file", .string file), ("statements", .number statements)] ++ report.entries
  if json then .ofCode code ((Json.object entries).text ++ "\n") ""
  else if code = 0 then
    let name := (Path.ofText file).name
    .ofCode code s!"OK: {name} - {statements} statement(s), no errors\n" ""
  else .ofCode code "" (reportText report)

/-- A token and where it starts and ends. -/
def tokenLine (t : Token) : String :=
  s!"{t.span.start.offset}..{t.span.stop.offset} {t.text}\n"

/-- Model of `cmd_tokens`. -/
def listTokens (file text : String) : Transcript :=
  let s := scriptOf file text
  match (s.openStream .tokens).drain s with
  | (ts, none, _) => .ofCode 0 (String.join (ts.map tokenLine)) ""
  | (ts, some f, _) => .ofCode 1 (String.join (ts.map tokenLine)) (failureText f)

/-- Model of `cmd_ast`. -/
def drawTree (limits : Limits) (file text : String) : Transcript :=
  match (scriptOf file text).parse limits with
  | .ok [] => .ofCode 0 "" ""
  | .ok p =>
    match Program.drawing? p limits with
    | some drawing => .ofCode 0 (drawing ++ "\n") ""
    | none => { ending := .tooHigh }
  | .error f => .ofCode 1 "" (failureText f)

/-- Runs a script under settings that are known. -/
def runUnder (limits : Limits) (settings : Settings) (file text input : String) (verbose : Bool) :
    Transcript :=
  match (scriptOf file text).run limits settings input with
  | (.error c, s) =>
    { out := s.output, err := if verbose then sessionLog s else "", ending := .crash c }
  | (.ok o, s) =>
    let log := if verbose then sessionLog s else ""
    let report : Report := { diagnostics := o.failures.map Failure.diagnostic }
    let errors := if o.success then "" else reportText report
    .ofCode o.exitCode s.output (log ++ errors)

/-- Puts the settings together and runs a script.  Model of `cmd_run`. -/
def runFile (limits : Limits) (read : String → Document) (look : Path → Entry) (vars : Variables)
    (input : String) (verbose : Bool) (options : RunOptions) (file text : String) : Transcript :=
  let sources := options.sources vars
  match sources.fileLayer read look with
  | .error (.meaningless why) => { ending := .unreadable why }
  | .error f => .ofError f.message
  | .ok loaded =>
    let logged := fun line : String => if verbose then line else ""
    let log := logged ((loaded.map fun l => loadedLine l.1).getD "")
    let layers := (loaded.map (·.2)).toList ++ sources.openLayers
    match options.base.withLayers layers with
    | .error .noText => ({ ending := .unreadable LayerFault.noText.message } : Transcript).after log
    | .error f => (Transcript.ofError f.message).after log
    | .ok settings =>
      (runUnder limits settings file text input verbose).after
        (log ++ logged (runningLine file settings))

/-- Carries out a command; `look` tells what is found at a path, and `read` makes documents of
settings files. -/
def perform (limits : Limits) (read : String → Document) (look : Path → Entry) (vars : Variables)
    (input : String) (i : Invocation) : Transcript :=
  withText look i.file fun text => match i.action with
    | .check json => check limits json i.file text
    | .tokens => listTokens i.file text
    | .tree => drawTree limits i.file text
    | .run options => runFile limits read look vars input i.verbose options i.file text

/-- Carries out the command that a command line stands for. -/
def performWords (limits : Limits) (read : String → Document) (look : Path → Entry)
    (vars : Variables) (input : String) (words : List String) : Transcript :=
  match Invocation.ofWords words with
  | .ok i => perform limits read look vars input i
  | .error h => { ending := .halted h }

end DialogueScript.Command
