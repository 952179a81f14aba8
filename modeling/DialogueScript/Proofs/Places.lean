import DialogueScript.Token.Scan

/-!
# Places of a text

* `Location.exists_lines`, `Location.after_lines` — a text is whole lines and part of a line, and
  the location behind it counts the lines and the characters of the part;
* `Script.IsPlace` — the locations of a script's text;
* `Script.mem_scan` — every token is a stretch of the text, between the places at its two ends.
-/

namespace DialogueScript

namespace Location

theorem after_of_not_mem (l : Location) {cs : List Char} (h : '\n' ∉ cs) :
    l.after cs = ⟨l.line, l.column + cs.length, l.offset + cs.length⟩ := by
  induction cs generalizing l with
  | nil => rfl
  | cons c cs ih =>
    rw [List.mem_cons, not_or] at h
    have hstep : l.step c = ⟨l.line, l.column + 1, l.offset + 1⟩ := by
      simp [step, Ne.symm h.1]
    show (l.step c).after cs = _
    rw [ih _ h.2, hstep, List.length_cons]
    simp only [mk.injEq, true_and]
    omega

theorem line_step (l : Location) (c : Char) : (l.step c).line = l.line + [c].count '\n' := by
  unfold step
  by_cases hc : c = '\n'
  · simp [hc]
  · simp [hc]

theorem line_after (l : Location) (cs : List Char) :
    (l.after cs).line = l.line + cs.count '\n' := by
  induction cs generalizing l with
  | nil => rfl
  | cons c cs ih =>
    show ((l.step c).after cs).line = _
    have hcount : (c :: cs).count '\n' = [c].count '\n' + cs.count '\n' :=
      @List.count_append _ _ _ [c] cs
    rw [ih, line_step, hcount, Nat.add_assoc]

/-- A text is whole lines, and then part of a line. -/
theorem exists_lines (cs : List Char) :
    ∃ whole part, cs = whole ++ part ∧ (whole = [] ∨ ∃ w, whole = w ++ ['\n']) ∧ '\n' ∉ part := by
  induction cs with
  | nil => exact ⟨[], [], rfl, .inl rfl, List.not_mem_nil⟩
  | cons c cs ih =>
    obtain ⟨whole, part, rfl, hwhole, hpart⟩ := ih
    rcases hwhole with rfl | ⟨w, rfl⟩
    · by_cases hc : c = '\n'
      · exact ⟨[c], part, rfl, .inr ⟨[], by simp [hc]⟩, hpart⟩
      · refine ⟨[], c :: part, rfl, .inl rfl, ?_⟩
        rw [List.mem_cons, not_or]
        exact ⟨Ne.symm hc, hpart⟩
    · exact ⟨c :: (w ++ ['\n']), part, rfl, .inr ⟨c :: w, rfl⟩, hpart⟩

/-- The line behind a text is one more than its whole lines; the column and the offset count the
characters of the part and of the text. -/
theorem after_lines {whole part : List Char} (hwhole : whole = [] ∨ ∃ w, whole = w ++ ['\n'])
    (hpart : '\n' ∉ part) : ({} : Location).after (whole ++ part) =
      ⟨1 + whole.count '\n', 1 + part.length, (whole ++ part).length⟩ := by
  rw [after_append, after_of_not_mem _ hpart, line_after, offset_after, List.length_append]
  have hcolumn : (({} : Location).after whole).column = 1 := by
    rcases hwhole with rfl | ⟨w, rfl⟩
    · rfl
    · rw [after_append]
      rfl
  simp [hcolumn]

end Location

namespace Script

variable {s : Script}

/-- The location behind the first `n` characters. -/
def placeAt (s : Script) (n : Nat) : Location := ({} : Location).after (s.text.toList.take n)

/-- The location is that of a place of the text. -/
def IsPlace (s : Script) (l : Location) : Prop :=
  l.offset ≤ s.text.toList.length ∧ l = s.placeAt l.offset

theorem isPlace_after {pre post : List Char} (h : s.text.toList = pre ++ post) :
    s.IsPlace (({} : Location).after pre) := by
  have hoffset : (({} : Location).after pre).offset = pre.length := by
    rw [Location.offset_after]
    exact Nat.zero_add _
  refine ⟨?_, ?_⟩
  · rw [hoffset, h, List.length_append]
    omega
  · rw [placeAt, hoffset, h, List.take_left]

theorem isPlace_start : s.IsPlace {} := @isPlace_after s [] _ rfl

theorem mem_place {ps : List Scan.Piece} {pre last : List Char} {t : Token}
    (h : s.text.toList = pre ++ (Scan.join ps ++ last))
    (ht : t ∈ s.place (({} : Location).after pre) ps) :
    ∃ before after, s.text.toList = before ++ (t.lexeme.toList ++ after) ∧
      t.span = ⟨s.file, ({} : Location).after before,
        ({} : Location).after (before ++ t.lexeme.toList)⟩ := by
  induction ps generalizing pre with
  | nil => cases ht
  | cons p ps ih =>
    have htext : s.text.toList = (pre ++ p.gap) ++ (p.lexeme ++ (Scan.join ps ++ last)) := by
      rw [h]
      simp [Scan.join]
    rw [place, ← Location.after_append, ← Location.after_append] at ht
    rcases List.mem_cons.mp ht with rfl | ht
    · refine ⟨pre ++ p.gap, Scan.join ps ++ last, ?_, ?_⟩
      · rw [String.toList_ofList]
        exact htext
      · rw [String.toList_ofList]
    · exact ih (by rw [htext]; simp) ht

/-- **Every token is a stretch of the text**, and its span goes from one end of it to the other. -/
theorem mem_scan {t : Token} (ht : t ∈ s.scan) :
    ∃ before after, s.text.toList = before ++ (t.lexeme.toList ++ after) ∧
      t.span = ⟨s.file, ({} : Location).after before,
        ({} : Location).after (before ++ t.lexeme.toList)⟩ :=
  @mem_place s _ [] _ t (Scan.pieces_join s.integers s.text.toList).symm ht

theorem isPlace_of_mem_scan {t : Token} (ht : t ∈ s.scan) :
    s.IsPlace t.span.start ∧ s.IsPlace t.span.stop := by
  obtain ⟨before, after, htext, hspan⟩ := mem_scan ht
  rw [hspan]
  have hstop : s.text.toList = (before ++ t.lexeme.toList) ++ after := by
    rw [htext, List.append_assoc]
  exact ⟨isPlace_after htext, isPlace_after hstop⟩

theorem isPlace_finish : s.IsPlace s.finish.span.start ∧ s.IsPlace s.finish.span.stop := by
  have hend : s.IsPlace (({} : Location).after s.text.toList) :=
    @isPlace_after s _ [] (List.append_nil _).symm
  exact ⟨hend, hend⟩

end Script

end DialogueScript
