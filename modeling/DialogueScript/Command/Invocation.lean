import DialogueScript.Command.Flags
import DialogueScript.Settings.Sources

/-!
# Command lines

Model of `build_parser`, and of the settings that `cmd_run` makes of its arguments.

A command line names one of four actions and the script it is about.  Flags before the action are
about the whole command, flags after it about the action.

* `Invocation.ofWords` — reading a command line;
* `RunOptions.sources` — where the settings of a run come from.
-/

namespace DialogueScript.Command

/-- What may be given for one run. -/
structure RunOptions where
  config : Option String := none
  firstRelease : Bool := false
  scoping : Option String := none
  storage : Option String := none
  proceed : Bool := false
  deriving DecidableEq, Repr

inductive Action where
  | check (json : Bool)
  | tokens
  | tree
  | run (options : RunOptions)
  deriving DecidableEq, Repr

structure Invocation where
  /-- Whether events are reported. -/
  verbose : Bool := false
  action : Action
  file : String
  deriving DecidableEq, Repr

/-- What the flags of all actions set. -/
inductive Setting where
  | help
  | verbose
  | json
  | config
  | firstRelease
  | scoping
  | storage
  | proceed
  deriving DecidableEq, Repr

namespace Setting

def isHelp (s : Setting) : Bool := s == .help

end Setting

def helpFlag : Flag Setting := { sets := .help, long := "help", letter := some 'h' }

/-- The flags before the action. -/
def commonFlags : List (Flag Setting) :=
  [helpFlag, { sets := .verbose, long := "verbose", letter := some 'v' }]

/-- The names of the actions. -/
inductive Verb where
  | check
  | tokens
  | tree
  | run
  deriving DecidableEq, Repr

namespace Verb

def all : List Verb := [check, tokens, tree, run]

def word : Verb → String
  | check => "check"
  | tokens => "tokens"
  | tree => "ast"
  | run => "run"

def ofWord? (w : String) : Option Verb := all.find? (·.word == w)

/-- The flags after an action. -/
def flags : Verb → List (Flag Setting)
  | check => [helpFlag, { sets := .json, long := "json" }]
  | tokens => [helpFlag]
  | tree => [helpFlag]
  | run =>
    [helpFlag, { sets := .config, long := "config", letter := some 'c', takes := .word },
      { sets := .firstRelease, long := "legacy" },
      { sets := .scoping, long := "scoping", takes := .oneOf (Scoping.all.map Scoping.word) },
      { sets := .storage, long := "value-storage", takes := .oneOf (Storage.all.map Storage.word) },
      { sets := .proceed, long := "continue-on-error" }]

theorem ofWord?_word (v : Verb) : ofWord? v.word = some v := by cases v <;> decide

end Verb

/-- The word that was given last for a setting. -/
def Reading.last? (r : Reading Setting) (s : Setting) : Option String := r.flags.reverse.lookup s

def Reading.has (r : Reading Setting) (s : Setting) : Bool := (r.last? s).isSome

/-- The action that a verb and its flags are. -/
def Verb.action (v : Verb) (r : Reading Setting) : Action :=
  match v with
  | check => .check (r.has .json)
  | tokens => .tokens
  | tree => .tree
  | run => .run
    { config := r.last? .config
      firstRelease := r.has .firstRelease
      scoping := r.last? .scoping
      storage := r.last? .storage
      proceed := r.has .proceed }

/-- Reads the words after a verb: flags, and one script. -/
def Verb.invocation (v : Verb) (verbose strange : Bool) (ws : List String) :
    Except Halt Invocation :=
  match readWords v.flags Setting.isHelp ws with
  | .error h => .error h
  | .ok r =>
    match r.words with
    | [file] =>
      if strange || r.unknown then .error .misuse
      else .ok { verbose, action := v.action r, file }
    | _ => .error .misuse

namespace Invocation

/-- Reads flags up to the verb; `verbose` and `strange` tell whether events are to be reported and
whether there was a word that looks like a flag and is none. -/
def ofKinds (verbose strange : Bool) : List (String × Word Setting) → Except Halt Invocation
  | [] => .error .misuse
  | (w, kind) :: rest =>
    match kind with
    | .ordinary =>
      match Verb.ofWord? w with
      | some v => v.invocation verbose strange (rest.map (·.1))
      | none => .error .misuse
    | .unknown => ofKinds verbose true rest
    | .flag f joined byLetter =>
      match readFlag commonFlags f joined byLetter with
      | some group =>
        if group.sets.any fun s => Setting.isHelp s.1 then .error .help
        else ofKinds true (strange || group.unknown) rest
      | none => .error .misuse
    | .divider | .ambiguous => .error .misuse

/-- Model of what `build_parser` makes of a command line. -/
def ofWords (ws : List String) : Except Halt Invocation :=
  let kinds := classifyAll commonFlags ws
  if kinds.any fun k => match k.2 with | .ambiguous => true | _ => false then .error .misuse
  else ofKinds false false kinds

end Invocation

/-- The settings on which a run builds. -/
def RunOptions.base (o : RunOptions) : Settings :=
  if o.firstRelease then .ofFirstRelease else {}

/-- The options that are given for one run, as a layer. -/
def RunOptions.layer (o : RunOptions) : Layer :=
  let given := fun (k : Key) (w : Option String) => w.map fun w => (Plain.text k.word, Plain.text w)
  let policy := if o.proceed then some ErrorPolicy.proceed.word else none
  [given .scoping o.scoping, given .storage o.storage, given .policy policy].filterMap id

def RunOptions.sources (o : RunOptions) (vars : Variables) : Sources where
  path := o.config
  «variables» := vars
  overrides := o.layer

end DialogueScript.Command
