import DialogueScript.Diagnostic.Report
import DialogueScript.Json

/-!
# Diagnostics as data

Model of `Diagnostic.to_json` and `DiagnosticCollector.to_json`.

What other programs are told about diagnostics: all of it but the source line.

* `Diagnostic.summary` — one diagnostic;
* `Report.summary` — all diagnostics of a report and their number.
-/

namespace DialogueScript

def Location.summary (l : Location) : Json :=
  .object [("line", .number l.line), ("column", .number l.column), ("offset", .number l.offset)]

def Span.summary (s : Span) : Json :=
  .object [("start", s.start.summary), ("end", s.stop.summary)]

def Diagnostic.summary (d : Diagnostic) : Json :=
  .object
    [("code", .string d.code), ("message", .string d.message), ("severity", .string "error"),
      ("range", (d.span.map Span.summary).getD .null), ("hints", .list (d.hints.map .string))]

/-- The entries of the summary of a report. -/
def Report.entries (r : Report) : List (String × Json) :=
  [("diagnostics", .list (r.diagnostics.map Diagnostic.summary)), ("error_count", .number r.size)]

def Report.summary (r : Report) : Json := .object r.entries

end DialogueScript
