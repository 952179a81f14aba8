import DialogueScript.Limits
import DialogueScript.Syntax

/-!
# Outlines of syntax trees

Model of `PrintVisitor`, `format_ast` and `AstVisitor.generic_visit`.

A tree written over several lines: the name of a node, then its fields, each level indented.  A
field that is a node has its own outline below the name of the field.

* `Expr.outline`, `Stmt.outline` — the lines of a node;
* `Program.outline` — the lines of a program, one node after the other;
* `Program.drawing?` — the outline of a program, unless its tree has too many levels;
* `Expr.ofStmt`, `Stmt.ofExpr` — a node put where nodes of its kind cannot stand.
-/

namespace DialogueScript

namespace Outline

/-- The indentation of a field below its node. -/
def fieldPad (pad : String) : String := pad ++ "  "

/-- The indentation of a node below its field. -/
def childPad (pad : String) : String := pad ++ "    "

/-- A field on one line. -/
def field (pad name content : String) : String := fieldPad pad ++ name ++ ": " ++ content

/-- The line above a field that is a node. -/
def heading (pad name : String) : String := fieldPad pad ++ name ++ ":"

end Outline

open Outline

namespace Expr

def label : Expr → String
  | assign _ _ _ => "Assign"
  | binary _ _ _ _ => "Binary"
  | literal _ _ => "Literal"
  | name _ _ => "Variable"
  | stray label _ => label

/-- The lines of an expression, each after `pad`.  Model of `PrintVisitor.generic_visit`. -/
def outline (pad : String) : Expr → List String
  | assign n v _ =>
    [pad ++ "Assign", field pad "name" (Text.quoted n), heading pad "value"] ++
      v.outline (childPad pad)
  | binary l op r _ =>
    [pad ++ "Binary", heading pad "left"] ++ l.outline (childPad pad) ++
      [field pad "operator" op.label, heading pad "right"] ++ r.outline (childPad pad)
  | literal v _ => [pad ++ "Literal", field pad "value" v.content]
  | name n _ => [pad ++ "Variable", field pad "name" (Text.quoted n)]
  | stray label fields => (label :: fields).map (pad ++ ·)

/-- How many levels an expression has. -/
def height : Expr → Nat
  | assign _ v _ => v.height + 1
  | binary l _ r _ => max l.height r.height + 1
  | literal _ _ | name _ _ | stray _ _ => 1

end Expr

namespace Stmt

def label : Stmt → String
  | block _ _ => "Block"
  | express _ _ => "ExpressionStatement"
  | branch _ _ _ => "Branch"
  | loop _ _ => "Loop"
  | speak _ _ => "Speak"
  | input _ _ => "Input"
  | declare _ _ _ => "Var"
  | exit _ => "Exit"
  | stray label _ => label

mutual

/-- The lines of a statement, each after `pad`.  Model of `PrintVisitor.generic_visit`. -/
def outline (pad : String) : Stmt → List String
  | block body _ =>
    [pad ++ "Block", field pad "statements" "["] ++ outlineAll (childPad pad) body ++
      [fieldPad pad ++ "]"]
  | express e _ =>
    [pad ++ "ExpressionStatement", heading pad "expression"] ++ e.outline (childPad pad)
  | branch c body _ =>
    [pad ++ "Branch", heading pad "condition"] ++ c.outline (childPad pad) ++
      [heading pad "then"] ++ body.outline (childPad pad)
  | loop body _ => [pad ++ "Loop", heading pad "body"] ++ body.outline (childPad pad)
  | speak e _ => [pad ++ "Speak", heading pad "expression"] ++ e.outline (childPad pad)
  | input n _ => [pad ++ "Input", field pad "name" (Text.quoted n)]
  | declare n e _ =>
    [pad ++ "Var", field pad "name" (Text.quoted n), heading pad "init"] ++
      e.outline (childPad pad)
  | exit _ => [pad ++ "Exit"]
  | stray label fields => (label :: fields).map (pad ++ ·)

def outlineAll (pad : String) : List Stmt → List String
  | [] => []
  | s :: ss => s.outline pad ++ outlineAll pad ss

end

mutual

/-- How many levels a statement has. -/
def height : Stmt → Nat
  | block body _ => heightAll body + 1
  | express e _ | speak e _ | declare _ e _ => e.height + 1
  | branch c body _ => max c.height body.height + 1
  | loop body _ => body.height + 1
  | input _ _ | exit _ | stray _ _ => 1

/-- The levels of the highest of some statements. -/
def heightAll : List Stmt → Nat
  | [] => 0
  | s :: ss => max s.height (heightAll ss)

end

/-- An expression where a statement should be. -/
def ofExpr (e : Expr) : Stmt := stray e.label ((e.outline "").drop 1)

end Stmt

/-- A statement where an expression should be. -/
def Expr.ofStmt (s : Stmt) : Expr := .stray s.label ((s.outline "").drop 1)

/-- The outline of a program as one text.  Model of `format_ast`. -/
def Program.outline (p : Program) : String := "\n".intercalate (Stmt.outlineAll "" p)

/-- The levels of the highest statement of a program. -/
def Program.height (p : Program) : Nat := Stmt.heightAll p

/-- The outline of a program, if it can be drawn. -/
def Program.drawing? (p : Program) (limits : Limits) : Option String :=
  if p.height ≤ limits.height then some p.outline else none

/-- What a pass over syntax trees reports about a node for which it has no rule.  Model of
`AstVisitor.generic_visit`. -/
def noRule (label : String) : String := s!"No visitor for {label}"

theorem Stmt.outlineAll_append (pad : String) (p q : List Stmt) :
    outlineAll pad (p ++ q) = outlineAll pad p ++ outlineAll pad q := by
  induction p with
  | nil => rfl
  | cons s ss ih => simp [outlineAll, ih]

end DialogueScript
