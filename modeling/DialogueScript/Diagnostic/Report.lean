import DialogueScript.Diagnostic

/-!
# Reports

Model of `DiagnosticCollector`.

The diagnostics of one run in the order they came up, and how many of them are enough.

* `Report.text` — all diagnostics with an empty line between them, then their number;
* `Report.size_add` — adding one diagnostic makes the report longer by one.
-/

namespace DialogueScript

structure Report where
  /-- So many diagnostics are enough. -/
  limit : Int := 20
  diagnostics : List Diagnostic := []
  deriving DecidableEq, Repr

namespace Report

def size (r : Report) : Nat := r.diagnostics.length

def add (r : Report) (d : Diagnostic) : Report := { r with diagnostics := r.diagnostics ++ [d] }

/-- Whether there are enough diagnostics.  Model of `DiagnosticCollector.should_stop`. -/
def isFull (r : Report) : Bool := decide (r.limit ≤ (r.size : Int))

/-- Model of `DiagnosticCollector.format_all`. -/
def text (r : Report) (showSource : Bool) : String :=
  let total := if r.size = 0 then [] else [s!"\n{r.size} error(s)"]
  "\n\n".intercalate (r.diagnostics.map (·.text showSource) ++ total)

theorem size_add (r : Report) (d : Diagnostic) : (r.add d).size = r.size + 1 := by
  simp [add, size]

end Report

end DialogueScript
