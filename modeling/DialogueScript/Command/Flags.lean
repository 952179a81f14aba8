/-!
# Flags on a command line

Model of the reading of a command line by what `build_parser` returns.

The words of a command line are flags and others.  A flag has a long name after two dashes, of which
a beginning is enough if no other name begins like it, and perhaps a letter after one dash.  A flag
may take a word, behind an equals sign, behind its letter, or as the next word; letters of flags
that take none may share one dash.  Two dashes by themselves end the flags.

* `Flag.classify` — what a word is;
* `readWords` — all flags of a command line in their order, and the words that are no flags.
-/

namespace DialogueScript.Command

/-- What follows a flag. -/
inductive Takes where
  | nothing
  | word
  /-- One of some words. -/
  | oneOf (words : List String)
  deriving DecidableEq, Repr

/-- A flag that sets `α`. -/
structure Flag (α : Type) where
  sets : α
  long : String
  letter : Option Char := none
  takes : Takes := .nothing
  deriving DecidableEq, Repr

/-- Why a command line is not carried out. -/
inductive Halt where
  /-- Help was asked for. -/
  | help
  | misuse
  deriving DecidableEq, Repr

/-- What is joined to a flag, and whether an equals sign joins it. -/
structure Joined where
  equals : Bool
  text : List Char
  deriving DecidableEq, Repr

/-- What a word of a command line is. -/
inductive Word (α : Type) where
  /-- A flag, what is joined to it, and whether its letter names it. -/
  | flag (f : Flag α) (joined : Option Joined) (byLetter : Bool)
  | unknown
  | ordinary
  | ambiguous
  /-- Two dashes by themselves. -/
  | divider
  deriving DecidableEq, Repr

namespace Flag

variable {α : Type}

/-- The two parts of a word at its first equals sign. -/
def splitEquals (w : String) : String × Option Joined :=
  let cs := w.toList
  match cs.dropWhile (· != '=') with
  | _ :: rest => (String.ofList (cs.takeWhile (· != '=')), some ⟨true, rest⟩)
  | [] => (w, none)

def longName (f : Flag α) : String := "--" ++ f.long

def letterName (f : Flag α) : Option String := f.letter.map fun c => String.ofList ['-', c]

/-- The flag with exactly this name. -/
def ofName? (flags : List (Flag α)) (w : String) : Option (Flag α × Bool) :=
  match flags.find? (·.longName == w) with
  | some f => some (f, false)
  | none => (flags.find? (·.letterName == some w)).map fun f => (f, true)

/-- Whether a word is a negative number, which is no flag. -/
def isNegative (cs : List Char) : Bool :=
  match cs with
  | '-' :: rest =>
    match rest.dropWhile Char.isDigit with
    | [] => !rest.isEmpty
    | '.' :: fraction => !fraction.isEmpty && fraction.all Char.isDigit
    | _ => false
  | _ => false

/-- A word with a dash in front that is not the name of a flag. -/
def classifyOther (flags : List (Flag α)) (w : String) : Word α :=
  let other : Word α :=
    if isNegative w.toList || w.toList.contains ' ' then .ordinary else .unknown
  match w.toList with
  | '-' :: '-' :: _ =>
    let (name, joined) := splitEquals w
    match flags.filter fun f => name.isPrefixOf f.longName with
    | [] => other
    | [f] => .flag f joined false
    | _ => .ambiguous
  | '-' :: c :: rest =>
    match flags.find? (·.letter == some c) with
    | some f => .flag f (some ⟨false, rest⟩) true
    | none => other
  | _ => other

/-- What a word is, if it does not stand behind two dashes. -/
def classify (flags : List (Flag α)) (w : String) : Word α :=
  if w = "--" then .divider
  else if w = "-" || w.toList.head? != some '-' then .ordinary
  else match ofName? flags w with
    | some (f, byLetter) => .flag f none byLetter
    | none =>
      let (name, joined) := splitEquals w
      match joined, ofName? flags name with
      | some value, some (f, byLetter) => .flag f (some value) byLetter
      | _, _ => classifyOther flags w

end Flag

/-- Flags in their order, each with the word it takes, the words that are no flags, and whether some
word looks like a flag and is none. -/
structure Reading (α : Type) where
  flags : List (α × String) := []
  words : List String := []
  unknown : Bool := false
  deriving DecidableEq, Repr

variable {α : Type}

def Reading.withFlags (r : Reading α) (fs : List (α × String)) : Reading α :=
  { r with flags := fs ++ r.flags }

def Reading.withWord (r : Reading α) (w : String) : Reading α := { r with words := w :: r.words }

/-- Whether a flag may take a word. -/
def Takes.accepts : Takes → String → Bool
  | .nothing, _ => false
  | .word, _ => true
  | .oneOf words, w => words.contains w

/-- The flags of one word: what they set, the last one if it takes the next word, and whether a
letter among them names no flag. -/
structure Group (α : Type) where
  sets : List (α × String) := []
  open? : Option (Flag α) := none
  unknown : Bool := false
  deriving DecidableEq, Repr

/-- What stands behind a letter in a group. -/
def joinedTo : List Char → Option Joined
  | [] => none
  | '=' :: rest => some ⟨true, rest⟩
  | rest => some ⟨false, rest⟩

/-- The flags behind one dash.  A flag that takes no word may be followed by the letter of another
one, but not by an equals sign or a dash.  Each flag takes a character, so the bound is not used
up. -/
def readGroup (flags : List (Flag α)) : Nat → Flag α → Option Joined → Option (Group α)
  | 0, _, _ => none
  | bound + 1, f, joined =>
    match f.takes, joined with
    | .nothing, none => some { sets := [(f.sets, "")] }
    | .nothing, some ⟨_, []⟩ => none
    | .nothing, some ⟨equals, c :: rest⟩ =>
      if equals || c == '-' then none
      else match flags.find? (·.letter == some c) with
        | none => some { sets := [(f.sets, "")], unknown := true }
        | some g => (readGroup flags bound g (joinedTo rest)).map fun group =>
          { group with sets := (f.sets, "") :: group.sets }
    | _, none => some { open? := some f }
    | takes, some j =>
      let w := String.ofList j.text
      if takes.accepts w then some { sets := [(f.sets, w)] } else none

/-- The flags of a word.  Nothing may be joined to a long name that takes no word. -/
def readFlag (flags : List (Flag α)) (f : Flag α) (joined : Option Joined) (byLetter : Bool) :
    Option (Group α) :=
  if !byLetter && f.takes == .nothing && joined.isSome then none
  else readGroup flags ((joined.map (·.text.length)).getD 0 + 2) f joined

/-- Reads words from left to right.  Asking for help ends the reading, and so does misuse.  Two
dashes belong to the word before them or to the words after them. -/
def readFrom (flags : List (Flag α)) (isHelp : α → Bool) : List (String × Word α) →
    Except Halt (Reading α)
  | [] => .ok {}
  | (w, .ordinary) :: (_, .divider) :: rest => (readFrom flags isHelp rest).map (·.withWord w)
  | (w, kind) :: rest =>
    match kind with
    | .ambiguous => .error .misuse
    | .ordinary => (readFrom flags isHelp rest).map (·.withWord w)
    | .unknown => (readFrom flags isHelp rest).map fun r => { r with unknown := true }
    | .divider =>
      (readFrom flags isHelp rest).map fun r =>
        { r with unknown := r.unknown || r.words.isEmpty }
    | .flag f joined byLetter =>
      match readFlag flags f joined byLetter with
      | none => .error .misuse
      | some group =>
        match group.open?, rest with
        | none, rest =>
          if group.sets.any (isHelp ·.1) then .error .help
          else (readFrom flags isHelp rest).map fun r =>
            { r.withFlags group.sets with unknown := r.unknown || group.unknown }
        | some g, (w, .ordinary) :: rest =>
          if group.sets.any (isHelp ·.1) then .error .help
          else if !g.takes.accepts w then .error .misuse
          else (readFrom flags isHelp rest).map (·.withFlags (group.sets ++ [(g.sets, w)]))
        | some _, _ => .error .misuse

/-- The kinds of all words; behind two dashes every word is an ordinary one. -/
def classifyAll (flags : List (Flag α)) : List String → List (String × Word α)
  | [] => []
  | w :: rest =>
    match Flag.classify flags w with
    | .divider => (w, .divider) :: rest.map fun w => (w, .ordinary)
    | kind => (w, kind) :: classifyAll flags rest

/-- Reads the words of a command line. -/
def readWords (flags : List (Flag α)) (isHelp : α → Bool) (ws : List String) :
    Except Halt (Reading α) :=
  let kinds := classifyAll flags ws
  if kinds.any fun k => match k.2 with | .ambiguous => true | _ => false then .error .misuse
  else readFrom flags isHelp kinds

end DialogueScript.Command
