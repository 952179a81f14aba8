import DialogueScript.Token
import DialogueScript.Value

/-!
# Syntax trees

Model of `AstNode` and the classes of nodes under `Expr` and `Statement`.

A program is a list of statements.  Every node knows its span, unless the tree was built by hand.

* `Expr.stray`, `Stmt.stray` — a node in a place where nodes of its kind cannot stand; no source
  text has such a tree;
* `Expr.erase`, `Stmt.erase` — a tree without its spans;
* `Stmt.same_iff`, `Program.same_iff` — trees are the same when they are equal without their spans.
-/

namespace DialogueScript

/-- The operators; `unknown` stands for anything else in an operator's place and keeps the text by
which messages show it. -/
inductive Operator where
  | plus
  | minus
  | times
  | dividedBy
  | equals
  | unknown (shown : String)
  deriving DecidableEq, Repr

namespace Operator

/-- The sign of an operator in a script. -/
def sign? : Operator → Option Sign
  | plus => some .plus
  | minus => some .minus
  | times => some .star
  | dividedBy => some .slash
  | equals => some .equals
  | unknown _ => none

/-- The name of an operator in messages. -/
def label (op : Operator) : String :=
  match op.sign?, op with
  | some s, _ => s.label
  | none, unknown shown => shown
  | none, _ => ""

def all : List Operator := [plus, minus, times, dividedBy, equals]

/-- The operator with a name; a name of no operator is kept as it is. -/
def ofLabel (name : String) : Operator := (all.find? (·.label == name)).getD (unknown name)

/-- An operator as it is written. -/
def symbol : Operator → String
  | plus => "+"
  | minus => "-"
  | times => "*"
  | dividedBy => "/"
  | equals => "=="
  | unknown shown => shown

end Operator

inductive Expr where
  | assign (name : String) (value : Expr) (span : Option Span)
  | binary (left : Expr) (op : Operator) (right : Expr) (span : Option Span)
  | literal (value : Value) (span : Option Span)
  | name (name : String) (span : Option Span)
  /-- A statement where an expression should be: its name, and the lines of its outline below. -/
  | stray (label : String) (fields : List String)
  deriving DecidableEq

inductive Stmt where
  | block (body : List Stmt) (span : Option Span)
  | express (expr : Expr) (span : Option Span)
  | branch (condition : Expr) (body : Stmt) (span : Option Span)
  | loop (body : Stmt) (span : Option Span)
  | speak (expr : Expr) (span : Option Span)
  | input (name : String) (span : Option Span)
  | declare (name : String) (init : Expr) (span : Option Span)
  | exit (span : Option Span)
  /-- An expression where a statement should be: its name, and the lines of its outline below. -/
  | stray (label : String) (fields : List String)

abbrev Program := List Stmt

namespace Expr

def span : Expr → Option Span
  | assign _ _ s | binary _ _ _ s | literal _ s | name _ s => s
  | stray _ _ => none

/-- The expression without its spans. -/
def erase : Expr → Expr
  | assign n v _ => assign n v.erase none
  | binary l op r _ => binary l.erase op r.erase none
  | literal v _ => literal v none
  | name n _ => name n none
  | stray label fields => stray label fields

end Expr

namespace Stmt

def span : Stmt → Option Span
  | block _ s | express _ s | branch _ _ s | loop _ s | speak _ s | input _ s | declare _ _ s
  | exit s => s
  | stray _ _ => none

mutual

/-- The statement without its spans. -/
def erase : Stmt → Stmt
  | block body _ => block (eraseAll body) none
  | express e _ => express e.erase none
  | branch c body _ => branch c.erase body.erase none
  | loop body _ => loop body.erase none
  | speak e _ => speak e.erase none
  | input n _ => input n none
  | declare n e _ => declare n e.erase none
  | exit _ => exit none
  | stray label fields => stray label fields

def eraseAll : List Stmt → List Stmt
  | [] => []
  | s :: ss => s.erase :: eraseAll ss

end

mutual

/-- Whether two statements differ at most in their spans. -/
def same : Stmt → Stmt → Bool
  | block body _, block body' _ => sameAll body body'
  | express e _, express e' _ => e.erase == e'.erase
  | branch c body _, branch c' body' _ => c.erase == c'.erase && same body body'
  | loop body _, loop body' _ => same body body'
  | speak e _, speak e' _ => e.erase == e'.erase
  | input n _, input n' _ => n == n'
  | declare n e _, declare n' e' _ => n == n' && e.erase == e'.erase
  | exit _, exit _ => true
  | stray l fs, stray l' fs' => l == l' && fs == fs'
  | _, _ => false

def sameAll : List Stmt → List Stmt → Bool
  | [], [] => true
  | s :: ss, t :: ts => same s t && sameAll ss ts
  | _, _ => false

end

mutual

theorem same_iff : ∀ s t : Stmt, same s t = true ↔ s.erase = t.erase
  | block b _, t => by
    cases t <;> simp [same, erase]
    exact sameAll_iff b _
  | express e _, t => by cases t <;> simp [same, erase]
  | branch c b _, t => by
    cases t <;> simp [same, erase]
    intro _
    exact same_iff b _
  | loop b _, t => by
    cases t <;> simp [same, erase]
    exact same_iff b _
  | speak e _, t => by cases t <;> simp [same, erase]
  | input n _, t => by cases t <;> simp [same, erase]
  | declare n e _, t => by cases t <;> simp [same, erase]
  | exit _, t => by cases t <;> simp [same, erase]
  | stray l fs, t => by cases t <;> simp [same, erase]

theorem sameAll_iff : ∀ ss ts : List Stmt, sameAll ss ts = true ↔ eraseAll ss = eraseAll ts
  | [], ts => by cases ts <;> simp [sameAll, eraseAll]
  | s :: ss, ts => by
    cases ts with
    | nil => simp [sameAll, eraseAll]
    | cons t ts => simp [sameAll, eraseAll, same_iff s t, sameAll_iff ss ts]

end

end Stmt

namespace Program

/-- The program without its spans. -/
def erase (p : Program) : Program := Stmt.eraseAll p

def same (p q : Program) : Bool := Stmt.sameAll p q

theorem same_iff {p q : Program} : p.same q = true ↔ p.erase = q.erase := Stmt.sameAll_iff p q

end Program

end DialogueScript
