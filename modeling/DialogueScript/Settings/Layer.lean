import DialogueScript.Plain
import DialogueScript.Settings
import DialogueScript.Text.Blank

/-!
# Layers of settings

Model of `RuntimeConfig.merged`, `RuntimeConfig.from_dict` and `RuntimeConfig.to_dict`, with
`_parse_bool` and `_parse_enum`.

A layer gives some of the options a value, as plain data that is not checked yet.  Layers lie on top
of one another: an option that a layer gives hides what was there before, and an option that is
absent or null shows it.

* `Settings.put` — settings with one option changed, if what is given for it can be read;
* `Settings.withLayer` — settings with a layer on top of them;
* `Settings.toLayer` — settings as a layer of their own;
* `Settings.withLayer_append` — two layers one after the other are one longer layer.
-/

namespace DialogueScript

/-- The names of the options. -/
inductive Key where
  | scoping
  | storage
  | policy
  | integers
  deriving DecidableEq, Repr

namespace Key

def all : List Key := [scoping, storage, policy, integers]

def word : Key → String
  | scoping => "scoping"
  | storage => "value_storage"
  | policy => "error_policy"
  | integers => "integer_literals"

/-- The words that may be given for an option with a choice. -/
def choices : Key → List String
  | scoping => Scoping.all.map Scoping.word
  | storage => Storage.all.map Storage.word
  | policy => ErrorPolicy.all.map ErrorPolicy.word
  | integers => []

/-- The set whose members are taken as they are. -/
def choiceSet : Key → String
  | scoping => "ScopeMode"
  | storage => "StorageMode"
  | policy => "ErrorPolicy"
  | integers => ""

/-- The environment variable for an option. -/
def environmentName : Key → String
  | scoping => "ROBOT_DSL_SCOPING"
  | storage => "ROBOT_DSL_VALUE_STORAGE"
  | policy => "ROBOT_DSL_ERROR_POLICY"
  | integers => "ROBOT_DSL_INTEGER_LITERALS"

def ofPlain? : Plain → Option Key
  | .text w => all.find? (·.word == w)
  | _ => none

theorem ofPlain?_word (k : Key) : ofPlain? (.text k.word) = some k := by cases k <;> decide

end Key

/-- Options by name, with values that are not checked yet. -/
abbrev Layer := List (Plain × Plain)

/-- What can be wrong with a layer. -/
inductive LayerFault where
  | unknownKey (key : Plain)
  | notAChoice (key : Key) (found : Plain)
  | notBool (key : Key) (found : Plain)
  /-- What was found cannot even be shown. -/
  | noText

def LayerFault.message : LayerFault → String
  | unknownKey key => s!"unknown configuration key {key.dump}"
  | notAChoice key found =>
    let choices := ", ".intercalate key.choices
    s!"{key.word}: expected one of {choices}, got {found.dump}"
  | notBool key found => s!"{key.word}: expected a boolean, got {found.dump}"
  | noText => s!"Exceeds the limit ({Plain.digitLimit} digits) for integer string conversion; " ++
    "use sys.set_int_max_str_digits() to increase the limit"

/-- The word that stands for a choice of an option: a member of its own set of choices by its value,
all else by its text.  Model of `_parse_enum`. -/
def Key.choiceWord (k : Key) : Plain → String
  | .choice set member value =>
    if set = k.choiceSet then value else Text.plainWord (Plain.choice set member value).word
  | p => Text.plainWord p.word

/-- The words for truth and for falsehood. -/
def boolOfWord? (w : String) : Option Bool :=
  if ["1", "true", "yes", "on"].contains w then some true
  else if ["0", "false", "no", "off"].contains w then some false
  else none

/-- Model of `_parse_bool`. -/
def boolOfPlain? : Plain → Option Bool
  | .bool b => some b
  | p => boolOfWord? (Text.plainWord p.word)

namespace Settings

/-- Settings with one option changed. -/
def put (s : Settings) (k : Key) (found : Plain) : Except LayerFault Settings :=
  match found.hasText, k with
  | false, _ => .error .noText
  | true, .scoping =>
    match Scoping.ofWord? (k.choiceWord found) with
    | some scoping => .ok { s with scoping }
    | none => .error (.notAChoice k found)
  | true, .storage =>
    match Storage.ofWord? (k.choiceWord found) with
    | some storage => .ok { s with storage }
    | none => .error (.notAChoice k found)
  | true, .policy =>
    match ErrorPolicy.ofWord? (k.choiceWord found) with
    | some policy => .ok { s with policy }
    | none => .error (.notAChoice k found)
  | true, .integers =>
    match boolOfPlain? found with
    | some integers => .ok { s with integers }
    | none => .error (.notBool k found)

/-- Settings with a layer on top.  The first option that is wrong decides.  Model of
`RuntimeConfig.merged`. -/
def withLayer (s : Settings) : Layer → Except LayerFault Settings
  | [] => .ok s
  | (key, found) :: rest =>
    match Key.ofPlain? key with
    | none => .error (if key.hasText then .unknownKey key else .noText)
    | some k =>
      match found with
      | .null => s.withLayer rest
      | found =>
        match s.put k found with
        | .ok s => s.withLayer rest
        | .error f => .error f

def withLayers (s : Settings) : List Layer → Except LayerFault Settings
  | [] => .ok s
  | l :: ls =>
    match s.withLayer l with
    | .ok s => s.withLayers ls
    | .error f => .error f

/-- All four options as a layer.  Model of `RuntimeConfig.to_dict`. -/
def toLayer (s : Settings) : Layer :=
  [(.text Key.scoping.word, .text s.scoping.word), (.text Key.storage.word, .text s.storage.word),
    (.text Key.policy.word, .text s.policy.word), (.text Key.integers.word, .bool s.integers)]

theorem withLayer_append (s : Settings) (a b : Layer) :
    s.withLayer (a ++ b) =
      match s.withLayer a with
      | .ok s => s.withLayer b
      | .error f => .error f := by
  induction a generalizing s with
  | nil => rfl
  | cons e a ih =>
    obtain ⟨key, found⟩ := e
    simp only [List.cons_append, withLayer]
    split
    · rfl
    · split
      · exact ih s
      · split
        · exact ih _
        · rfl

end Settings

end DialogueScript
