import DialogueScript.Run.Session
import DialogueScript.Settings.Sources

/-!
# Reports of events

Model of the reports that `_enable_debug_logging` turns on.

What a command reports while it works, one line for every event: the part of the program that the
event belongs to, then what happened.
-/

namespace DialogueScript.Command

/-- The parts of the program that report events. -/
inductive Part where
  | command
  | settings
  | scopes
  | interpreter
  deriving DecidableEq, Repr

def Part.label : Part → String
  | command => "robot_dsl.cli"
  | settings => "robot_dsl.config"
  | scopes => "robot_dsl.runtime.context"
  | interpreter => "robot_dsl.runtime.interpreter"

def logLine (part : Part) (message : String) : String := s!"{part.label}: {message}\n"

/-- A list of texts as it is shown in a message. -/
def shownList (names : List String) : String := (Plain.list (names.map .text)).dump

def eventPart : Event → Part
  | .pushed _ _ | .merged _ | .popped _ _ => .scopes
  | .endOfInput _ | .exitReached | .recovered _ => .interpreter

def eventMessage : Event → String
  | .pushed frame depth =>
    let shown := Text.quoted frame
    s!"push scope {shown} (depth {depth})"
  | .merged names => s!"merged {shownList names} into enclosing scope"
  | .popped frame depth =>
    let shown := Text.quoted frame
    s!"pop scope {shown} (depth {depth})"
  | .endOfInput name =>
    let shown := Text.quoted name
    s!"end of input while reading {shown}, binding empty text"
  | .exitReached => "exit statement reached"
  | .recovered code => s!"recorded {code}, continuing with next statement"

def eventLine (e : Event) : String := logLine (eventPart e) (eventMessage e)

/-- All events of a session, the earliest first. -/
def sessionLog (s : Session) : String := String.join (s.events.reverse.map eventLine)

def loadedLine (path : Path) : String := logLine .settings s!"loaded config from {path.text}"

def runningLine (file : String) (settings : Settings) : String :=
  let shown := (Plain.map settings.toLayer).dump
  logLine .command s!"running {file} with {shown}"

end DialogueScript.Command
