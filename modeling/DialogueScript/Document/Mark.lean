import DialogueScript.Document.Quoted

/-!
# Marks of a document

A document is cut into marks: the words and quoted texts in it, the signs between them, and where
collections that are laid out by indentation start and end.  A word is a key if a colon follows it
on the same line; that is known only when the colon is reached, and then the mark for the key is put
before it.

* `Cutter` — a document that is cut up to some place, with the indentations that are open;
* `Cutter.next` — cutting one more mark;
* `marks?` — all marks of a document, if every piece of it has a meaning here.
-/

namespace DialogueScript.Document

open Text.Quoted (singleQuote doubleQuote)

inductive Mark where
  /-- A list or a mapping by indentation starts, or one of them ends. -/
  | listStart
  | mapStart
  | blockEnd
  | item
  | key
  | value
  | openList
  | closeList
  | openMap
  | closeMap
  | comma
  /-- The lines that start and end a document. -/
  | docStart
  | docEnd
  | word (s : String)
  | quoted (s : String)
  deriving DecidableEq, Repr

/-- A mark that turns out to be a key when a colon follows. -/
structure KeyGuess where
  /-- How many marks stand before it. -/
  position : Nat
  /-- Whether nothing else can start there. -/
  required : Bool
  start : Cursor

structure Cutter where
  here : Cursor
  marks : List Mark := []
  /-- The possible keys, one for every bracket that is open and one for the document, the innermost
  first. -/
  guesses : List (Option KeyGuess) := [none]
  /-- The columns of the collections that are open, the innermost first. -/
  indents : List Nat := []
  /-- Whether a key may start here. -/
  keyAllowed : Bool := true

/-- How far apart a key and its colon may be. -/
def keyReach : Nat := 1024

namespace Cutter

/-- Whether a bracket is open. -/
def inBrackets (s : Cutter) : Bool := decide (1 < s.guesses.length)

def add (s : Cutter) (m : Mark) : Cutter := { s with marks := s.marks ++ [m] }

/-- The number of characters up to the next mark, and whether a line ends among them. -/
def gapLength : Bool → List Char → Nat × Bool
  | _, [] => (0, false)
  | comment, c :: rest =>
    if isBreak c then
      let (n, _) := gapLength false rest
      (n + 1, true)
    else if comment || c == ' ' then
      let (n, crossed) := gapLength comment rest
      (n + 1, crossed)
    else if c == '#' then
      let (n, crossed) := gapLength true rest
      (n + 1, crossed)
    else (0, false)

/-- Goes to the next mark.  On a new line outside brackets a key may start. -/
def skipGap (s : Cutter) : Cutter :=
  let (n, crossed) := gapLength false s.here.rest
  { s with
    here := s.here.skip n
    keyAllowed := s.keyAllowed || (crossed && !s.inBrackets) }

/-- Whether a possible key is too far away for a colon here. -/
def isStale (s : Cutter) (g : KeyGuess) : Bool :=
  g.start.line != s.here.line || decide (keyReach < s.here.index - g.start.index)

/-- Gives up the possible keys that are too far away. -/
def dropStale (s : Cutter) : Option Cutter :=
  let stale := fun g : Option KeyGuess => (g.map s.isStale).getD false
  if s.guesses.any fun g => stale g && (g.map (·.required)).getD false then none
  else some { s with guesses := s.guesses.map fun g => if stale g then none else g }

/-- Gives up the possible key inside the innermost bracket. -/
def dropGuess (s : Cutter) : Option Cutter :=
  match s.guesses with
  | [] => some s
  | g :: outer =>
    if (g.map (·.required)).getD false then none else some { s with guesses := none :: outer }

/-- The mark that comes next may be a key. -/
def guess (s : Cutter) : Option Cutter :=
  if s.keyAllowed then
    s.dropGuess.map fun s =>
      let required := !s.inBrackets && s.indents.head? == some s.here.column
      let g : KeyGuess := ⟨s.marks.length, required, s.here⟩
      { s with guesses := some g :: s.guesses.drop 1 }
  else some s

/-- Ends the collections that are indented by more than `column`. -/
def closeTo (s : Cutter) (column : Nat) : Cutter :=
  if s.inBrackets then s
  else
    let closed := s.indents.takeWhile (column < ·)
    { s with
      indents := s.indents.drop closed.length
      marks := s.marks ++ closed.map fun _ => .blockEnd }

/-- Ends all collections. -/
def closeAll (s : Cutter) : Cutter :=
  if s.inBrackets then s
  else { s with indents := [], marks := s.marks ++ s.indents.map fun _ => .blockEnd }

/-- Whether a collection at a column lies deeper than those that are open. -/
def isDeeper (s : Cutter) (column : Nat) : Bool :=
  match s.indents with
  | [] => true
  | i :: _ => decide (i < column)

/-- Starts a collection at this column, if it lies deeper than those that are open. -/
def openHere (s : Cutter) (m : Mark) : Cutter :=
  if !s.inBrackets && s.isDeeper s.here.column then
    { s with indents := s.here.column :: s.indents }.add m
  else s

/-- One sign of `width` characters. -/
def sign (s : Cutter) (m : Mark) (width : Nat) : Cutter :=
  { s with here := s.here.skip width }.add m

/-- A line that starts or ends a document. -/
def boundary (s : Cutter) (m : Mark) : Option Cutter :=
  s.closeAll.dropGuess.map fun s => { s with keyAllowed := false }.sign m 3

def openBracket (s : Cutter) (m : Mark) : Option Cutter :=
  s.guess.map fun s => { s with guesses := none :: s.guesses, keyAllowed := true }.sign m 1

/-- A closing bracket; there has to be an open one. -/
def closeBracket (s : Cutter) (m : Mark) : Option Cutter :=
  if s.inBrackets then
    s.dropGuess.map fun s =>
      { s with guesses := s.guesses.drop 1, keyAllowed := false }.sign m 1
  else none

def commaSign (s : Cutter) : Option Cutter :=
  s.dropGuess.map fun s => { s with keyAllowed := true }.sign .comma 1

/-- The sign of an item of a list. -/
def itemSign (s : Cutter) : Option Cutter :=
  if s.inBrackets || s.keyAllowed then
    (s.openHere .listStart).dropGuess.map fun s => { s with keyAllowed := true }.sign .item 1
  else none

/-- The sign in front of a key. -/
def keySign (s : Cutter) : Option Cutter :=
  if s.inBrackets || s.keyAllowed then
    (s.openHere .mapStart).dropGuess.map fun s =>
      { s with keyAllowed := !s.inBrackets }.sign .key 1
  else none

/-- The colon after a key: the mark that may be a key is one. -/
def valueSign (s : Cutter) : Option Cutter :=
  match s.guesses with
  | some g :: outer =>
    let starts := !s.inBrackets && s.isDeeper g.start.column
    let new := if starts then [.mapStart, .key] else [.key]
    let indents := if starts then g.start.column :: s.indents else s.indents
    let marks := s.marks.take g.position ++ new ++ s.marks.drop g.position
    some ({ s with marks, indents, guesses := none :: outer, keyAllowed := false }.sign .value 1)
  | _ =>
    if s.inBrackets || s.keyAllowed then
      (s.openHere .mapStart).dropGuess.map fun s =>
        { s with keyAllowed := !s.inBrackets }.sign .value 1
    else none

def quotedMark (s : Cutter) (mark : Char) : Option Cutter :=
  s.guess.bind fun s =>
    let body := s.here.rest.drop 1
    (quotedText? mark (body.length + 1) body).map fun (text, rest) =>
      { s with here := s.here.skipTo rest, keyAllowed := false }.add (.quoted (String.ofList text))

/-- The signs that end a word inside brackets. -/
def bracketSigns : List Char := [',', '[', ']', '\x7b', '\x7d']

/-- The characters of a word up to the next blank or sign. -/
def wordRun (brackets : Bool) : List Char → List Char
  | [] => []
  | c :: rest =>
    let colon := c == ':' && (endsWord rest.head? ||
      brackets && (rest.head?.map bracketSigns.contains).getD false)
    if endsWord (some c) || colon || brackets && (c == '?' || bracketSigns.contains c) then []
    else c :: wordRun brackets rest

/-- The line ends inside a word, what follows them, and whether a document starts or ends there. -/
def wordBreaks : List Char → List Char × List Char × Bool
  | [] => ([], [], false)
  | c :: rest =>
    if c == ' ' then wordBreaks rest
    else if isBreak c then
      if isBoundary rest then ([], rest, true)
      else
        let (breaks, after, stopped) := wordBreaks rest
        (plainBreak c :: breaks, after, stopped)
    else ([], c :: rest, false)

/-- What stands between two runs of a word. -/
structure WordGap where
  text : List Char
  stop : Cursor
  /-- Whether a line ends in it. -/
  crossed : Bool

/-- The gap at a cursor. -/
def wordGap (c : Cursor) : WordGap :=
  let spaces := c.rest.takeWhile (· == ' ')
  match c.rest.drop spaces.length with
  | [] => ⟨spaces, c.skip spaces.length, false⟩
  | b :: rest =>
    if !isBreak b then ⟨spaces, c.skip spaces.length, false⟩
    else if isBoundary rest then ⟨[], c.skipTo rest, true⟩
    else
      let (breaks, after, stopped) := wordBreaks rest
      ⟨if stopped then [] else foldBreaks b breaks, c.skipTo after, true⟩

/-- A word at a cursor, after the gap `before`; it may go on over further lines that are indented by
`column` at least, for at most `bound` runs. -/
def wordText (brackets : Bool) (column : Nat) : Nat → WordGap → WordGap
  | 0, before => { before with text := [] }
  | bound + 1, before =>
    let run := wordRun brackets before.stop.rest
    if run.isEmpty || before.stop.rest.head? == some '#' then { before with text := [] }
    else
      let gap := wordGap (before.stop.skip run.length)
      let more := if gap.text.isEmpty || (!brackets && decide (gap.stop.column < column)) then
          { gap with text := [] }
        else wordText brackets column bound gap
      { more with text := before.text ++ run ++ more.text }

/-- The column at which a further line of a word may start. -/
def wordColumn (s : Cutter) : Nat :=
  match s.indents with
  | [] => 0
  | i :: _ => i + 1

def wordMark (s : Cutter) : Option Cutter :=
  s.guess.map fun s =>
    let word := wordText s.inBrackets s.wordColumn s.here.rest.length ⟨[], s.here, false⟩
    { s with here := word.stop, keyAllowed := word.crossed }.add (.word (String.ofList word.text))

/-- The characters that start no word. -/
def reserved : List Char :=
  [',', '[', ']', '\x7b', '\x7d', '#', '&', '*', '!', '|', '>', singleQuote, doubleQuote, '%', '@',
    '\x60']

/-- Whether a word can start with `c`, when `after` is the next character. -/
def startsWord (s : Cutter) (c : Char) (after : Option Char) : Bool :=
  if c == '-' then !endsWord after
  else if c == '?' || c == ':' then !endsWord after && !s.inBrackets
  else !endsWord (some c) && !reserved.contains c

/-- Cuts the mark that starts with `c`. -/
def next (s : Cutter) (c : Char) (rest : List Char) : Option Cutter :=
  if s.here.column = 0 && isRule '-' (c :: rest) then s.boundary .docStart
  else if s.here.column = 0 && isRule '.' (c :: rest) then s.boundary .docEnd
  else if c == '[' then s.openBracket .openList
  else if c == '\x7b' then s.openBracket .openMap
  else if c == ']' then s.closeBracket .closeList
  else if c == '\x7d' then s.closeBracket .closeMap
  else if c == ',' then s.commaSign
  else if c == '-' && endsWord rest.head? then s.itemSign
  else if c == '?' && (s.inBrackets || endsWord rest.head?) then s.keySign
  else if c == ':' && (s.inBrackets || endsWord rest.head?) then s.valueSign
  else if c == singleQuote || c == doubleQuote then s.quotedMark c
  else if s.startsWord c rest.head? then s.wordMark
  else none

/-- Cuts the rest of a document.  Every mark takes a character at least, so `bound` marks are enough
if there are fewer characters. -/
def run : Nat → Cutter → Option (List Mark)
  | 0, _ => none
  | bound + 1, s =>
    s.skipGap.dropStale.bind fun s =>
      let s := s.closeTo s.here.column
      match s.here.rest with
      | [] => s.closeAll.dropGuess.map (·.marks)
      | c :: rest => (s.next c rest).bind (run bound)

end Cutter

/-- The characters that may stand in a document. -/
def isAllowed (c : Char) : Bool :=
  let n := c.toNat
  c == '\t' || c == '\n' || c == '\r' || decide (0x20 ≤ n ∧ n ≤ 0x7e) || n == 0x85 ||
    decide (0xa0 ≤ n ∧ n ≤ 0xd7ff) || decide (0xe000 ≤ n ∧ n ≤ 0xfffd) || decide (0x10000 ≤ n)

/-- The marks of a document. -/
def marks? (cs : List Char) : Option (List Mark) :=
  let cs := if cs.head? == some byteOrderMark then cs.drop 1 else cs
  if cs.all isAllowed then Cutter.run (cs.length + 1) { here := { rest := cs } } else none

end DialogueScript.Document
