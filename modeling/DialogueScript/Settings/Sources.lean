import DialogueScript.Document
import DialogueScript.Folder
import DialogueScript.Settings.Layer
import DialogueScript.Text.Lines

/-!
# Where settings come from

Model of `load_config`, `RuntimeConfig.load`, `_read_yaml` and `env_overrides`.

Settings are put together from a settings file, the environment and what is given for one run.  Each
of the three is a layer; the file lies lowest.

* `Layer.ofFile` — the layer in a settings file, of which `read` makes a document;
* `Layer.ofEnvironment` — the layer that the environment variables are;
* `Sources.layers` — all layers of a run, from the lowest to the highest;
* `Settings.resolve` — the settings that come out.
-/

namespace DialogueScript

/-- Why no settings come out. -/
inductive SourceFault where
  | missing (path : Path)
  | folder (path : Path)
  | notAFolder (path : Path)
  /-- The text of the file is no document. -/
  | unreadable (path : Path) (why : String)
  /-- Something in the file stands for no data. -/
  | meaningless (why : String)
  | notAMapping (path : Path)
  | layer (fault : LayerFault)

def SourceFault.message : SourceFault → String
  | missing path =>
    let shown := Text.quoted path.text
    s!"[Errno 2] No such file or directory: {shown}"
  | folder path =>
    let shown := Text.quoted path.text
    s!"[Errno 21] Is a directory: {shown}"
  | notAFolder path =>
    let shown := Text.quoted path.text
    s!"[Errno 20] Not a directory: {shown}"
  | unreadable path why => s!"{path.text}: invalid YAML: {why}"
  | meaningless why => why
  | notAMapping path => s!"{path.text}: top level must be a mapping"
  | layer fault => fault.message

/-- Variables by name; of two of the same name the first one counts. -/
abbrev Variables := List (String × String)

/-- The layer of a document.  A document with nothing in it is an empty mapping. -/
def Layer.ofDocument (path : Path) (p : Plain) : Except SourceFault Layer :=
  if p.isEmpty then .ok []
  else match p with
    | .map entries => .ok entries
    | _ => .error (.notAMapping path)

/-- The layer in a settings file.  Model of `_read_yaml`. -/
def Layer.ofFile (read : String → Document) (look : Path → Entry) (path : Path) :
    Except SourceFault Layer :=
  match look path with
  | .missing => .error (.missing path)
  | .folder => .error (.folder path)
  | .notAFolder => .error (.notAFolder path)
  | .file text =>
    match read (Text.plainLineEnds text) with
    | .data p => Layer.ofDocument path p
    | .malformed why => .error (.unreadable path why)
    | .meaningless why => .error (.meaningless why)

/-- The options for which a variable is set, in their order.  Model of `env_overrides`. -/
def Layer.ofEnvironment (vars : Variables) : Layer :=
  Key.all.filterMap fun k => (vars.lookup k.environmentName).map fun w =>
    (.text k.word, .text w)

/-- What settings are put together from. -/
structure Sources where
  path : Option String := none
  «variables» : Variables := []
  overrides : Layer := []

namespace Sources

/-- The variable that names a settings file when no path is given. -/
def pathVariable : String := "ROBOT_DSL_CONFIG"

/-- The path of the settings file, if there is one; an empty variable names none. -/
def file? (s : Sources) : Option Path :=
  match s.path, s.variables.lookup pathVariable with
  | some p, _ => some (Path.ofText p)
  | none, some p => if p.isEmpty then none else some (Path.ofText p)
  | none, none => none

/-- The layer of the settings file, if there is one. -/
def fileLayer (s : Sources) (read : String → Document) (look : Path → Entry) :
    Except SourceFault (Option (Path × Layer)) :=
  match s.file? with
  | none => .ok none
  | some path => (Layer.ofFile read look path).map fun l => some (path, l)

/-- The layers that do not come from a file. -/
def openLayers (s : Sources) : List Layer := [Layer.ofEnvironment s.variables, s.overrides]

/-- All layers, the lowest first. -/
def layers (s : Sources) (read : String → Document) (look : Path → Entry) :
    Except SourceFault (List Layer) :=
  (s.fileLayer read look).map fun file => (file.map (·.2)).toList ++ s.openLayers

end Sources

/-- The settings that come out when the layers of the sources lie on top of `base`.  Model of
`load_config`. -/
def Settings.resolve (base : Settings) (read : String → Document) (look : Path → Entry)
    (s : Sources) : Except SourceFault Settings :=
  match s.layers read look with
  | .error f => .error f
  | .ok layers => (base.withLayers layers).mapError .layer

/-- The settings in one file.  Model of `RuntimeConfig.load`. -/
def Settings.load (read : String → Document) (look : Path → Entry) (path : String) :
    Except SourceFault Settings :=
  match Layer.ofFile read look (Path.ofText path) with
  | .error f => .error f
  | .ok layer => (({} : Settings).withLayer layer).mapError .layer

end DialogueScript
