import DialogueScript.Location
import DialogueScript.Number.Layout
import DialogueScript.Text.CaseFold
import DialogueScript.Text.Quoted

/-!
# Tokens

Model of `TokenType`, `Token` and `keyword_type`.

The words, signs and literals that a script is made of.

* `Keyword.ofWord?` — a word is a keyword whatever its capitals;
* `Kind.label` — the name of a kind of token in messages;
* `Token.text` — a token in messages: its label, and its value where it has one of its own.
-/

namespace DialogueScript

inductive Keyword where
  | declare
  | function
  | speak
  | input
  | branch
  | exit
  | loop
  deriving DecidableEq, Repr

/-- How a keyword is written. -/
def Keyword.word : Keyword → String
  | .declare => "global"
  | .function => "fn"
  | .speak => "speak"
  | .input => "input"
  | .branch => "if"
  | .exit => "exit"
  | .loop => "loop"

def Keyword.label : Keyword → String
  | .declare => "GLOBAL"
  | .function => "FN"
  | .speak => "SPEAK"
  | .input => "INPUT"
  | .branch => "IF"
  | .exit => "EXIT"
  | .loop => "LOOP"

def Keyword.all : List Keyword := [.declare, .function, .speak, .input, .branch, .exit, .loop]

/-- The keyword that a word is, its case folded.  Model of `keyword_type`. -/
def Keyword.ofWord? (w : List Char) : Option Keyword :=
  Keyword.all.find? fun k => k.word.toList == Text.fold w

inductive Sign where
  | openParen
  | closeParen
  | assign
  | semicolon
  | openBrace
  | closeBrace
  | plus
  | minus
  | star
  | slash
  | equals
  deriving DecidableEq, Repr

def Sign.label : Sign → String
  | .openParen => "LPAREN"
  | .closeParen => "RPAREN"
  | .assign => "ASSIGN"
  | .semicolon => "SEMICOLON"
  | .openBrace => "LBRACE"
  | .closeBrace => "RBRACE"
  | .plus => "PLUS"
  | .minus => "MINUS"
  | .star => "STAR"
  | .slash => "SLASH"
  | .equals => "EQ"

/-- The signs of one character, other than the one for assignment. -/
def Sign.ofChar? (c : Char) : Option Sign :=
  match c with
  | '(' => some .openParen
  | ')' => some .closeParen
  | ';' => some .semicolon
  | '\x7b' => some .openBrace
  | '\x7d' => some .closeBrace
  | '+' => some .plus
  | '-' => some .minus
  | '*' => some .star
  | '/' => some .slash
  | _ => none

/-- What a token is.  `bad` is a piece of text that is no token, `finish` the end of the text. -/
inductive Kind where
  | keyword (k : Keyword)
  | sign (s : Sign)
  | name (s : String)
  | number (x : Float)
  | text (s : String)
  | bad (s : String)
  | finish
  deriving DecidableEq

def Kind.label : Kind → String
  | .keyword k => k.label
  | .sign s => s.label
  | .name _ => "IDENTIFIER"
  | .number _ => "NUMBER"
  | .text _ => "STRING"
  | .bad _ => "ERROR"
  | .finish => "EOF"

def Kind.isBad : Kind → Bool
  | .bad _ => true
  | _ => false

structure Token where
  kind : Kind
  lexeme : String
  span : Span
  deriving DecidableEq

/-- A token as messages show it.  Model of `Token.__str__`. -/
def Token.text (t : Token) : String :=
  match t.kind with
  | .name s | .text s | .bad s => s!"{t.kind.label}({Text.quoted s})"
  | .number x => s!"{t.kind.label}({Number.dump x})"
  | _ => t.kind.label

theorem Keyword.ofWord?_eq_some_iff {w : List Char} {k : Keyword} :
    Keyword.ofWord? w = some k ↔ Text.fold w = k.word.toList := by
  constructor
  · intro h
    have := List.find?_some h
    exact (beq_iff_eq.mp this).symm
  · intro h
    unfold Keyword.ofWord?
    rw [h]
    cases k <;> decide

end DialogueScript
