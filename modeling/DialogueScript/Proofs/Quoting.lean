import DialogueScript.Proofs.Excerpts
import DialogueScript.Proofs.ParseResults

/-!
# Where reports quote the right line

Every report on a script that quotes a line quotes the excerpt line with the number of the line its
span starts on.  That is the line of the span exactly where the text before the end of the span
breaks plainly.

* `Script.Reports` — the failures of parsing and running a script;
* `Script.reports_refer` — they are at places of the text, and quote the line with that number;
* `Script.extract_quoted` — the quoted line against the text, on spans of one line;
* `Script.reports_quote_iff` — all this together.
-/

namespace DialogueScript

/-- Quoting puts the line of its span into a failure that has none. -/
theorem Failure.Within.quoting {A : Location → Prop} {f : Failure} (h : f.Within (Span.Marked A))
    (text : String) : (f.quoting (some text)).Refers text A := by
  obtain ⟨sp, hspan, hs, hline⟩ := h
  refine ⟨sp, ?_, hs, .inr ?_⟩
  · simp [Failure.quoting, hspan, hline]
  · simp [Failure.quoting, hspan, hline]

namespace Script

/-- A failure that parsing the script reports, or running it. -/
def Reports (s : Script) (limits : Limits) (settings : Settings) (input : String) (f : Failure) :
    Prop :=
  s.parse limits = .error f ∨ ∃ o, (s.run limits settings input).1 = .ok o ∧ f ∈ o.failures

variable {s : Script} {limits : Limits} {settings : Settings} {input : String} {f : Failure}

theorem isPlace_of_parse {p : Program} (h : s.parse limits = .ok p) :
    ∀ stmt ∈ p, stmt.Spanned (Span.Marked s.IsPlace) :=
  parse_spanned isPlace_start (fun _ ht => isPlace_of_mem_scan ht) isPlace_finish h

theorem refers_of_parse (h : s.parse limits = .error f) : f.Refers s.text s.IsPlace :=
  parse_refers isPlace_start (fun _ ht => isPlace_of_mem_scan ht) isPlace_finish h

/-- The spans and the lines of whatever is reported. -/
theorem reports_refer (h : s.Reports limits settings input f) : f.Refers s.text s.IsPlace := by
  rcases h with h | ⟨o, ho, hf⟩
  · exact refers_of_parse h
  · -- the settings change neither the text nor its places
    have hspanned := @isPlace_of_parse (s.withSettings settings) limits
    have hrefers := @refers_of_parse (s.withSettings settings) limits
    rw [run] at ho
    cases hp : (s.withSettings settings).parse limits with
    | error g =>
      rw [hp] at ho
      cases ho
      obtain rfl := List.mem_singleton.mp hf
      exact hrefers hp
    | ok p =>
      rw [hp] at ho
      rcases Program.runFrom_within (hspanned hp) ho hf with hf | ⟨g, hg, rfl⟩
      · cases hf
      · exact hg.quoting s.text

/-- Between two places of one line there is no line feed. -/
theorem exists_between {n m : Nat} (hle : n ≤ m)
    (hsame : (s.placeAt n).line = (s.placeAt m).line) :
    ∃ mid, s.text.toList.take m = s.text.toList.take n ++ mid ∧ '\n' ∉ mid ∧
      mid = s.text.toList.extract n m ∧
      (s.placeAt m).column = (s.placeAt n).column + mid.length := by
  let mid := s.text.toList.extract n m
  have htake : s.text.toList.take m = s.text.toList.take n ++ mid := by
    show _ = _ ++ s.text.toList.extract n m
    rw [List.extract_eq_take_drop, ← List.take_add, Nat.add_sub_cancel' hle]
  have hafter : s.placeAt m = (s.placeAt n).after mid := by
    rw [placeAt, htake, Location.after_append]
    rfl
  have hmid : '\n' ∉ mid := by
    rw [hafter, Location.line_after] at hsame
    rw [← List.count_eq_zero]
    omega
  refine ⟨mid, htake, hmid, rfl, ?_⟩
  rw [hafter, Location.after_of_not_mem _ hmid]

/-- The quoted line has the characters of the text, where the text breaks plainly. -/
theorem extract_quoted {sp : Span} {line : String} (hstart : s.IsPlace sp.start)
    (hstop : s.IsPlace sp.stop) (hsame : sp.start.line = sp.stop.line)
    (hplain : Text.BreaksPlainly (s.text.toList.take sp.stop.offset))
    (hline : Text.excerptLine? s.text sp.start.line = some line) :
    line.toList.extract (sp.start.column - 1) (sp.stop.column - 1) =
      s.text.toList.extract sp.start.offset sp.stop.offset := by
  have hlines : (s.placeAt sp.start.offset).line = (s.placeAt sp.stop.offset).line := by
    rw [← hstart.2, ← hstop.2]
    exact hsame
  rcases Nat.le_total sp.start.offset sp.stop.offset with hle | hle
  · obtain ⟨mid, htake, hmid, hextract, -⟩ := exists_between hle hlines
    have htext : s.text.toList =
        s.text.toList.take sp.start.offset ++ (mid ++ s.text.toList.drop sp.stop.offset) := by
      rw [← List.append_assoc, ← htake, List.take_append_drop]
    rw [htake] at hplain
    rw [hstart.2] at hline
    have h := Text.extract_excerpt htext hmid hplain hline
    rw [← htake] at h
    have hcolumn : sp.start.column = (s.placeAt sp.start.offset).column :=
      congrArg Location.column hstart.2
    have hcolumn' : sp.stop.column = (s.placeAt sp.stop.offset).column :=
      congrArg Location.column hstop.2
    rw [← hextract, hcolumn, hcolumn']
    exact h
  · -- a span that ends before it starts is empty on both sides
    obtain ⟨mid, -, -, -, hcolumn⟩ := exists_between hle hlines.symm
    have hcolumns : sp.stop.column ≤ sp.start.column := by
      rw [hstart.2, hstop.2, hcolumn]
      exact Nat.le_add_right _ _
    rw [List.extract_eq_take_drop, List.extract_eq_take_drop, Nat.sub_eq_zero_of_le hle,
      Nat.sub_eq_zero_of_le (Nat.sub_le_sub_right hcolumns 1)]
    rfl

/-- **Where the right line is quoted.**  The reported span lies in the text, and the line that is
quoted has the number of the line where the span starts.  For a span of one line, it is the line on
which the span ends exactly if the text breaks plainly up to there, and then its columns under the
carets have the characters of the span. -/
theorem reports_quote_iff (h : s.Reports limits settings input f) {sp : Span}
    (hspan : f.span = some sp) {line : String} (hline : f.sourceLine = some line) :
    s.IsPlace sp.start ∧ s.IsPlace sp.stop ∧
      Text.excerptLine? s.text sp.start.line = some line ∧
      (sp.start.line = sp.stop.line →
        (Text.excerptNumber (s.text.toList.take sp.stop.offset) = sp.start.line ↔
          Text.BreaksPlainly (s.text.toList.take sp.stop.offset)) ∧
        (Text.BreaksPlainly (s.text.toList.take sp.stop.offset) →
          line.toList.extract (sp.start.column - 1) (sp.stop.column - 1) =
            s.text.toList.extract sp.start.offset sp.stop.offset)) := by
  obtain ⟨sp', hsp', ⟨hstart, hstop⟩, hquote⟩ := reports_refer h
  rw [hspan] at hsp'
  cases hsp'
  have hexcerpt : Text.excerptLine? s.text sp.start.line = some line := by
    rcases hquote with hquote | hquote
    · rw [hline] at hquote
      cases hquote
    · rw [← hquote, hline]
  refine ⟨hstart, hstop, hexcerpt, fun hsame => ⟨?_, fun hplain => ?_⟩⟩
  · have hplace : (({} : Location).after (s.text.toList.take sp.stop.offset)).line =
        sp.start.line := by
      rw [hsame]
      exact congrArg Location.line hstop.2.symm
    rw [← hplace]
    exact Text.excerptNumber_eq_iff
  · exact extract_quoted hstart hstop hsame hplain hexcerpt

/-- A script whose only statement shows a variable that was never declared. -/
def ghostScript : Script := { text := "speak ghost;" }

def ghostFailure : Failure :=
  ⟨.unbound "ghost", some ⟨none, ⟨1, 7, 6⟩, ⟨1, 12, 11⟩⟩, some "speak ghost;"⟩

theorem ghostScript_quoted :
    ghostScript.Reports .small {} "" ghostFailure ∧
      "speak ghost;".toList.extract 6 11 = ghostScript.text.toList.extract 6 11 := by
  have hrun : (ghostScript.run .small {} "").1 = .ok ⟨false, [ghostFailure]⟩ := by
    decide +kernel
  have hreports : ghostScript.Reports .small {} "" ghostFailure :=
    .inr ⟨_, hrun, List.mem_singleton.mpr rfl⟩
  have hplain : Text.BreaksPlainly (ghostScript.text.toList.take 11) := by
    simp [Text.BreaksPlainly, ghostScript, Text.joinPairs, Text.isLineBreak]
  obtain ⟨-, -, -, hsame⟩ := reports_quote_iff hreports rfl rfl
  exact ⟨hreports, (hsame rfl).2 hplain⟩

/-- A script whose first line ends with a form feed and a line feed. -/
def formFeedScript : Script := { text := "speak a;\x0c\nspeak @;" }

def formFeedFailure : Failure :=
  ⟨.badToken "@", some ⟨none, ⟨2, 7, 16⟩, ⟨2, 8, 17⟩⟩, some ""⟩

/-- The form feed ends a line of excerpts but no line of locations, so an empty line is quoted. -/
theorem formFeedScript_misquoted :
    formFeedScript.Reports .small {} "" formFeedFailure ∧
      "".toList.extract 6 7 ≠ formFeedScript.text.toList.extract 16 17 := by
  have hrun : (formFeedScript.run .small {} "").1 = .ok ⟨false, [formFeedFailure]⟩ := by
    decide +kernel
  exact ⟨.inr ⟨_, hrun, List.mem_singleton.mpr rfl⟩, by decide⟩

end Script

end DialogueScript
