/-!
# Places in a document

A cursor stands in a document and knows the text from there on, the number of its line and how far
it is from the start of the line.

* `Cursor.skip` — moving on;
* `isBreak`, `endsWord` — the characters that end a line and those that end a word;
* `foldBreaks` — what a row of line ends inside a text stands for.
-/

namespace DialogueScript.Document

/-- The characters that end a line. -/
def isBreak (c : Char) : Bool := c == '\n' || c == '\x85' || c == '\u2028' || c == '\u2029'

/-- Every line end but the two separators is a line feed. -/
def plainBreak (c : Char) : Char := if c == '\x85' then '\n' else c

/-- Whether a word ends before this character, or at the end of the document. -/
def endsWord : Option Char → Bool
  | none => true
  | some c => c == ' ' || c == '\t' || isBreak c

/-- Whether a line starts with three of the character `c` and nothing more in the same word. -/
def isRule (c : Char) (cs : List Char) : Bool :=
  cs.take 3 == [c, c, c] && endsWord (cs.drop 3).head?

/-- Whether a line starts or ends a document. -/
def isBoundary (cs : List Char) : Bool := isRule '-' cs || isRule '.' cs

/-- A single line end becomes a blank; the first of several is left out. -/
def foldBreaks (first : Char) (more : List Char) : List Char :=
  if plainBreak first != '\n' then first :: more
  else if more.isEmpty then [' ']
  else more

/-- The mark that may stand in front of a text and has no width. -/
def byteOrderMark : Char := '\ufeff'

structure Cursor where
  rest : List Char
  /-- The number of characters passed. -/
  index : Nat := 0
  line : Nat := 0
  column : Nat := 0
  deriving DecidableEq, Repr

namespace Cursor

def step (c : Cursor) : Cursor :=
  match c.rest with
  | [] => c
  | ch :: rest =>
    if isBreak ch then ⟨rest, c.index + 1, c.line + 1, 0⟩
    else ⟨rest, c.index + 1, c.line, if ch == byteOrderMark then c.column else c.column + 1⟩

def skip : Nat → Cursor → Cursor
  | 0, c => c
  | n + 1, c => c.step.skip n

/-- Moves on until `rest` is left. -/
def skipTo (c : Cursor) (rest : List Char) : Cursor := skip (c.rest.length - rest.length) c

theorem rest_skip (n : Nat) (c : Cursor) : (skip n c).rest = c.rest.drop n := by
  induction n generalizing c with
  | zero => rfl
  | succ n ih =>
    rw [skip, ih, step]
    cases h : c.rest with
    | nil => simp [h]
    | cons ch rest =>
      simp only [List.drop_succ_cons]
      split <;> rfl

end Cursor

end DialogueScript.Document
