/-!
# Places in a source text

Model of `SourceLocation`, `SourceSpan` and `_Scanner._advance`.

A `Location` counts lines and columns from one and characters from zero; only a line feed starts a
new line.  A `Span` goes from one location to another and may know the name of the text.

* `Location.after_append` — locations are counted character by character;
* `Location.offset_after` — the offset is the number of characters passed.
-/

namespace DialogueScript

structure Location where
  line : Nat := 1
  column : Nat := 1
  offset : Nat := 0
  deriving DecidableEq, Repr, Inhabited

/-- The location after one more character.  Model of `_Scanner._advance`. -/
def Location.step (l : Location) (c : Char) : Location :=
  if c == '\n' then ⟨l.line + 1, 1, l.offset + 1⟩ else ⟨l.line, l.column + 1, l.offset + 1⟩

/-- The location after the characters `cs`. -/
def Location.after (l : Location) (cs : List Char) : Location := cs.foldl Location.step l

structure Span where
  file : Option String := none
  start : Location
  stop : Location
  deriving DecidableEq, Repr, Inhabited

def Location.text (l : Location) : String := s!"{l.line}:{l.column}"

/-- The name of the text before a location; an empty name is left out. -/
def Span.label (s : Span) : String :=
  match s.file with
  | some name => if name.isEmpty then "" else name ++ ":"
  | none => ""

/-- Where a span starts. -/
def Span.startText (s : Span) : String := s.label ++ s.start.text

def Span.text (s : Span) : String := s.startText ++ "-" ++ s.stop.text

theorem Location.after_append (l : Location) (a b : List Char) :
    l.after (a ++ b) = (l.after a).after b := by
  simp [Location.after]

theorem Location.offset_step (l : Location) (c : Char) : (l.step c).offset = l.offset + 1 := by
  unfold Location.step
  split <;> rfl

theorem Location.offset_after (l : Location) (cs : List Char) :
    (l.after cs).offset = l.offset + cs.length := by
  induction cs generalizing l with
  | nil => rfl
  | cons c cs ih =>
    show ((l.step c).after cs).offset = _
    rw [ih, Location.offset_step, List.length_cons]
    omega

end DialogueScript
