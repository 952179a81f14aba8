import DialogueScript.Document.Cursor
import DialogueScript.Text.Quoted

/-!
# Quoted texts in a document

A text between quotes may go over several lines; a line end in it becomes a blank, and the blanks
around it are dropped.  Between single quotes only the quote is special and is written twice;
between double quotes a backslash starts an escape.

* `quotedText?` — a text up to its closing quote, and what follows it.
-/

namespace DialogueScript.Document

open Text.Quoted (singleQuote doubleQuote backslash)

/-- What a letter after a backslash stands for. -/
def escapes : List (Char × Char) :=
  [('0', '\x00'), ('a', '\x07'), ('b', '\x08'), ('t', '\t'), ('\t', '\t'), ('n', '\n'),
    ('v', '\x0b'), ('f', '\x0c'), ('r', '\r'), ('e', '\x1b'), (' ', ' '),
    (doubleQuote, doubleQuote), (backslash, backslash), ('/', '/'), ('N', '\x85'), ('_', '\xa0'),
    ('L', '\u2028'), ('P', '\u2029')]

/-- How many hexadecimal digits follow a letter after a backslash. -/
def escapeWidths : List (Char × Nat) := [('x', 2), ('u', 4), ('U', 8)]

def isHexDigit (c : Char) : Bool :=
  c.isDigit || decide ('a' ≤ c ∧ c ≤ 'f') || decide ('A' ≤ c ∧ c ≤ 'F')

def hexValue (c : Char) : Nat :=
  if c.isDigit then c.toNat - '0'.toNat else c.toLower.toNat - 'a'.toNat + 10

/-- The character with a number, if there is one. -/
def charOfNat? (n : Nat) : Option Char := if n.isValidChar then some (Char.ofNat n) else none

/-- The line ends at a cursor with the blanks around them, and what follows.  A document must not
start or end inside a text. -/
def quotedBreaks (fresh : Bool) : List Char → Option (List Char × List Char)
  | [] => some ([], [])
  | c :: rest =>
    if fresh && isBoundary (c :: rest) then none
    else if c == ' ' || c == '\t' then quotedBreaks false rest
    else if isBreak c then
      (quotedBreaks true rest).map fun (breaks, after) => (plainBreak c :: breaks, after)
    else some ([], c :: rest)

/-- The blanks or the line ends at the start of a text, and what follows. -/
def quotedGap? (cs : List Char) : Option (List Char × List Char) :=
  let isBlank := fun c : Char => c == ' ' || c == '\t'
  match cs.dropWhile isBlank with
  | [] => none
  | c :: rest =>
    if isBreak c then
      (quotedBreaks true rest).map fun (breaks, after) => (foldBreaks c breaks, after)
    else some (cs.takeWhile isBlank, c :: rest)

/-- What an escape stands for, and what follows it. -/
def escape? : List Char → Option (List Char × List Char)
  | [] => none
  | c :: rest =>
    match escapes.lookup c, escapeWidths.lookup c with
    | some d, _ => some ([d], rest)
    | none, some width =>
      let ds := rest.take width
      if ds.length = width && ds.all isHexDigit then
        (charOfNat? (ds.foldl (fun n d => 16 * n + hexValue d) 0)).map fun d =>
          ([d], rest.drop width)
      else none
    | none, none => if isBreak c then quotedBreaks true rest else none

/-- The text up to the quote `mark`, and what follows the quote; at most `bound` pieces are read. -/
def quotedText? (mark : Char) : Nat → List Char → Option (List Char × List Char)
  | 0, _ => none
  | _, [] => none
  | bound + 1, c :: rest =>
    let go := fun (piece after : List Char) =>
      (quotedText? mark bound after).map fun (text, after) => (piece ++ text, after)
    if c == mark then
      if mark == singleQuote && rest.head? == some mark then go [mark] (rest.drop 1)
      else some ([], rest)
    else if c == ' ' || c == '\t' || isBreak c then
      (quotedGap? (c :: rest)).bind fun (piece, after) => go piece after
    else if mark == doubleQuote && c == backslash then
      (escape? rest).bind fun (piece, after) => go piece after
    else go [c] rest

end DialogueScript.Document
