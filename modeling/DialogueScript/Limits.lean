/-!
# Limits

Reading, running and drawing go down a level for everything that lies inside something else, and
loops go round until something stops them.  How far they get is not up to the language but to the
machine that runs it, so every function that may have to give up takes the limits along.

* `Limits` — how many levels and rounds there are;
* `Limits.small` — a few of each.
-/

namespace DialogueScript

/-- How far a program can be read, run and drawn. -/
structure Limits where
  /-- The levels of nesting that can be read: a statement inside another, an expression in
  parentheses or the value of an assignment is one level deeper. -/
  nesting : Nat
  /-- The levels of nesting that can be executed and evaluated. -/
  depth : Nat
  /-- The rounds that a loop can make. -/
  rounds : Nat
  /-- The levels of a syntax tree that can be drawn.  Drawing goes down along chains of operators
  too. -/
  height : Nat
  deriving DecidableEq, Repr

/-- Room for programs of a few lines. -/
def Limits.small : Limits where
  nesting := 10
  depth := 30
  rounds := 100
  height := 10

end DialogueScript
