import DialogueScript.Proofs.Places
import DialogueScript.Syntax.Parse

/-!
# Tokens tile the text

Read from the left, a text is a gap, a token, a gap, a token, and so on, and a last gap.  What a gap
is and where a place lies are said here without the scanner.

* `Scan.Gap` — blanks and comments in front of what follows them;
* `Script.Located` — the line and the column of a location are those of its offset;
* `Script.Tiles` — tokens, one after the other, with gaps between them;
* `Scan.splitGap_gap`, `Script.tiles_place` — the scanner takes a whole gap, and places a token
  behind it;
* `Script.scan_tiles` — so the tokens of a script tile its text, and if all of them are good, one
  token for the end is added.
-/

namespace DialogueScript

namespace Scan

/-- A gap in front of a text.  A comment runs to the next line feed, or to the end of the text. -/
inductive Gap : List Char → List Char → Prop
  | nil (after : List Char) : Gap [] after
  | blank {c : Char} {gap after : List Char} (hc : c ∈ [' ', '\t', '\n', '\x0c', '\r'])
      (h : Gap gap after) : Gap (c :: gap) after
  | comment {body gap after : List Char} (hbody : '\n' ∉ body)
      (hend : gap ++ after = [] ∨ ∃ more, gap ++ after = '\n' :: more) (h : Gap gap after) :
      Gap ('#' :: body ++ gap) after

theorem isSpace_iff {c : Char} : isSpace c = true ↔ c ∈ [' ', '\t', '\n', '\x0c', '\r'] := by
  simp [isSpace, or_assoc]

/-- Inside a comment the scanner first takes the rest of the comment. -/
theorem splitGap_gap (comment : Bool) (cs : List Char) :
    if comment then
      ∃ body gap, (splitGap true cs).1 = body ++ gap ∧ '\n' ∉ body ∧
        (gap ++ (splitGap true cs).2 = [] ∨ ∃ more, gap ++ (splitGap true cs).2 = '\n' :: more) ∧
        Gap gap (splitGap true cs).2
    else Gap (splitGap false cs).1 (splitGap false cs).2 := by
  induction cs generalizing comment with
  | nil =>
    cases comment with
    | false => exact .nil []
    | true => exact ⟨[], [], rfl, List.not_mem_nil, .inl rfl, .nil []⟩
  | cons c cs ih =>
    cases comment with
    | false =>
      have hgap : Gap (splitGap false cs).1 (splitGap false cs).2 := ih false
      rw [if_neg Bool.false_ne_true, splitGap, if_neg Bool.false_ne_true]
      by_cases hspace : isSpace c = true
      · rw [if_pos hspace]
        exact .blank (isSpace_iff.mp hspace) hgap
      · rw [if_neg hspace]
        by_cases hsharp : (c == '#') = true
        · obtain ⟨body, gap, hsplit, hbody, hend, hrest⟩ := ih true
          rw [if_pos hsharp, beq_iff_eq.mp hsharp]
          show Gap ('#' :: (splitGap true cs).1) (splitGap true cs).2
          rw [hsplit]
          exact .comment hbody hend hrest
        · rw [if_neg hsharp]
          exact .nil _
    | true =>
      rw [if_pos rfl, splitGap, if_pos rfl]
      by_cases hc : c = '\n'
      · -- the comment has ended, and the line feed is a blank of the gap behind it
        subst hc
        have hgap : Gap (splitGap false cs).1 (splitGap false cs).2 := ih false
        exact ⟨[], '\n' :: (splitGap false cs).1, rfl, List.not_mem_nil, .inr ⟨_, rfl⟩,
          .blank (by simp) hgap⟩
      · have hne : (c != '\n') = true := bne_iff_ne.mpr hc
        obtain ⟨body, gap, hsplit, hbody, hend, hrest⟩ := ih true
        rw [hne]
        refine ⟨c :: body, gap, ?_, ?_, hend, hrest⟩
        · rw [List.cons_append, ← hsplit]
        · rw [List.mem_cons, not_or]
          exact ⟨Ne.symm hc, hbody⟩

theorem gap_of_splitGap {cs gap rest : List Char} (h : splitGap false cs = (gap, rest)) :
    cs = gap ++ rest ∧ Gap gap rest := by
  have hgap := splitGap_gap false cs
  have happend := gap_append_rest false cs
  rw [h] at hgap happend
  exact ⟨happend.symm, hgap⟩

/-- No token of a text is the end of it. -/
theorem munch_kind_ne_finish (integers : Bool) (c : Char) (rest : List Char) :
    (munch integers c rest).kind ≠ .finish := by
  unfold munch
  split
  · unfold munchText
    split <;> simp
  · split
    · simp only [munchNumber]
      split <;> simp
    · split
      · simp only [munchWord]
        split <;> simp
      · unfold munchSign
        split
        · split <;> simp
        · split <;> simp

/-- What is true of the first token of every text is true of all pieces. -/
theorem forall_mem_pieces {P : Kind → List Char → Prop} {integers : Bool}
    (h : ∀ c rest, P (munch integers c rest).kind (munch integers c rest).lexeme)
    {cs : List Char} {p : Piece} (hp : p ∈ (pieces integers cs).1) : P p.kind p.lexeme := by
  fun_induction pieces integers cs with
  | case1 cs gap h => cases hp
  | case2 cs gap c rest _ m more last hm ih =>
    rw [hm] at ih
    rcases List.mem_cons.mp hp with rfl | hp
    · exact h c rest
    · exact ih hp

end Scan

namespace Script

variable {s : Script}

/-- The line and the column of a location are those of its offset: the lines are counted by the line
feeds before it, the columns from the last of them. -/
structure Located (s : Script) (l : Location) : Prop where
  offset : l.offset ≤ s.text.toList.length
  line : l.line = 1 + (s.text.toList.take l.offset).count '\n'
  column : l.column = 1 + ((s.text.toList.take l.offset).reverse.takeWhile (· ≠ '\n')).length

/-- From an offset on, the text is gaps and tokens in turn, and a last gap. -/
inductive Tiles (s : Script) : Nat → List Token → Prop
  | last {i : Nat} (hgap : Scan.Gap (s.text.toList.drop i) []) : Tiles s i []
  | token {i : Nat} {t : Token} {ts : List Token} (hle : i ≤ t.span.start.offset)
      (hgap : Scan.Gap (s.text.toList.extract i t.span.start.offset)
        (s.text.toList.drop t.span.start.offset))
      (hne : t.lexeme ≠ "")
      (hlexeme : t.lexeme.toList = s.text.toList.extract t.span.start.offset t.span.stop.offset)
      (hstart : s.Located t.span.start) (hstop : s.Located t.span.stop)
      (hts : Tiles s t.span.stop.offset ts) : Tiles s i (t :: ts)

theorem IsPlace.located {l : Location} (h : s.IsPlace l) : s.Located l := by
  obtain ⟨hle, hplace⟩ := h
  obtain ⟨whole, part, htake, hwhole, hpart⟩ :=
    Location.exists_lines (s.text.toList.take l.offset)
  have hl : l = ⟨1 + whole.count '\n', 1 + part.length, (whole ++ part).length⟩ := by
    rw [← Location.after_lines hwhole hpart, ← htake]
    exact hplace
  refine ⟨hle, ?_, ?_⟩
  · have hcount : part.count '\n' = 0 := List.count_eq_zero.mpr hpart
    rw [htake, List.count_append, hcount, hl]
    rfl
  · -- read backwards, the part of a line ends where the whole lines begin
    have hplain : ∀ c ∈ part.reverse, decide (c ≠ '\n') = true := by
      intro c hc
      refine decide_eq_true ?_
      rintro rfl
      exact hpart (List.mem_reverse.mp hc)
    have hwholes : whole.reverse.takeWhile (fun c => decide (c ≠ '\n')) = [] := by
      rcases hwhole with rfl | ⟨w, rfl⟩
      · rfl
      · simp
    have hback : (whole ++ part).reverse.takeWhile (fun c => decide (c ≠ '\n')) = part.reverse := by
      rw [List.reverse_append, List.takeWhile_append_of_pos hplain, hwholes, List.append_nil]
    rw [htake, hback, List.length_reverse, hl]

theorem extract_between (pre mid post : List Char) :
    (pre ++ (mid ++ post)).extract pre.length (pre.length + mid.length) = mid := by
  simp [List.extract_eq_take_drop]

/-- Pieces are placed behind what is already cut off, and tile the rest. -/
theorem tiles_place (integers : Bool) (cs pre : List Char) (htext : s.text.toList = pre ++ cs) :
    s.Tiles pre.length (s.place (({} : Location).after pre) (Scan.pieces integers cs).1) := by
  fun_induction Scan.pieces integers cs generalizing pre with
  | case1 cs gap h =>
    obtain ⟨hcs, hgap⟩ := Scan.gap_of_splitGap h
    have hdrop : s.text.toList.drop pre.length = gap := by
      rw [htext, List.drop_left, hcs, List.append_nil]
    refine .last ?_
    rw [hdrop]
    exact hgap
  | case2 cs gap c rest h m more last hm ih =>
    obtain ⟨hcs, hgap⟩ := Scan.gap_of_splitGap h
    have hlexeme : m.lexeme ++ m.rest = c :: rest :=
      Scan.munch_lexeme_append_rest integers c rest
    have hne : m.lexeme ≠ [] := Scan.munch_lexeme_ne_nil integers c rest
    have htoken : s.text.toList = (pre ++ gap) ++ (m.lexeme ++ m.rest) := by
      rw [htext, hcs, hlexeme, List.append_assoc]
    have hrest : s.text.toList = (pre ++ gap ++ m.lexeme) ++ m.rest := by
      rw [htoken, List.append_assoc _ m.lexeme]
    have hstart : (({} : Location).after (pre ++ gap)).offset = (pre ++ gap).length := by
      rw [Location.offset_after]
      exact Nat.zero_add _
    have hstop : (({} : Location).after (pre ++ gap ++ m.lexeme)).offset =
        (pre ++ gap).length + m.lexeme.length := by
      rw [Location.offset_after, List.length_append]
      exact Nat.zero_add _
    have hmore : s.Tiles ((pre ++ gap).length + m.lexeme.length)
        (s.place (({} : Location).after (pre ++ gap ++ m.lexeme)) more) := by
      have htiles := ih (pre ++ gap ++ m.lexeme) hrest
      rw [hm, List.length_append] at htiles
      exact htiles
    rw [place, ← Location.after_append, ← Location.after_append]
    refine .token ?_ ?_ ?_ ?_ (isPlace_after htoken).located (isPlace_after hrest).located ?_
    · rw [hstart, List.length_append]
      omega
    · have hbefore := extract_between pre gap (c :: rest)
      have hafter : s.text.toList.drop (pre ++ gap).length = c :: rest := by
        rw [htoken, List.drop_left, hlexeme]
      rw [hstart, hafter, List.length_append, htext, hcs, hbefore]
      exact hgap
    · intro hempty
      exact hne (String.ofList_eq_empty_iff.mp hempty)
    · rw [String.toList_ofList, hstart, hstop, htoken, extract_between]
    · rw [hstop]
      exact hmore

/-- So it is true of all tokens. -/
theorem forall_mem_scan {P : Kind → List Char → Prop}
    (h : ∀ c rest, P (Scan.munch s.integers c rest).kind (Scan.munch s.integers c rest).lexeme)
    {t : Token} (ht : t ∈ s.scan) : P t.kind t.lexeme.toList := by
  have hplace : ∀ (ps : List Scan.Piece) (l : Location), t ∈ s.place l ps →
      ∃ p ∈ ps, t.kind = p.kind ∧ t.lexeme.toList = p.lexeme := by
    intro ps
    induction ps with
    | nil =>
      intro l ht
      cases ht
    | cons p ps ih =>
      intro l ht
      rcases List.mem_cons.mp ht with rfl | ht
      · exact ⟨p, List.mem_cons_self, rfl, String.toList_ofList⟩
      · obtain ⟨q, hq, hkind, hlexeme⟩ := ih _ ht
        exact ⟨q, List.mem_cons_of_mem _ hq, hkind, hlexeme⟩
  obtain ⟨p, hp, hkind, hlexeme⟩ := hplace _ _ ht
  rw [hkind, hlexeme]
  exact Scan.forall_mem_pieces h hp

theorem kind_ne_finish_of_mem_scan {t : Token} (ht : t ∈ s.scan) : t.kind ≠ .finish :=
  forall_mem_scan (P := fun k _ => k ≠ .finish) (Scan.munch_kind_ne_finish s.integers) ht

/-- A script has tokens exactly when all its pieces are good, and then they are these pieces and one
end. -/
theorem tokens_eq_ok_iff (s : Script) :
    s.tokens = .ok (s.scan ++ [s.finish]) ↔ ∀ t ∈ s.scan, t.kind.isBad = false := by
  unfold tokens
  dsimp only
  cases hfind : s.scan.find? (·.kind.isBad) with
  | none =>
    rw [List.find?_eq_none] at hfind
    refine ⟨fun _ t ht => ?_, fun _ => rfl⟩
    exact Bool.eq_false_iff.mpr (hfind t ht)
  | some t =>
    constructor
    · intro h
      cases h
    · intro h
      have hbad := List.find?_some hfind
      rw [h t (List.mem_of_find?_eq_some hfind)] at hbad
      cases hbad

/-- **The tokens of a script tile its text.**  If none of them is bad, the script's tokens are these
and one more for the end, which is empty and stands behind the last character. -/
theorem scan_tiles (s : Script) :
    s.Tiles 0 s.scan ∧ (∀ t ∈ s.scan, t.kind ≠ .finish) ∧
      ∃ finish : Token, finish.kind = .finish ∧ finish.lexeme = "" ∧
        finish.span.start = finish.span.stop ∧
        finish.span.start.offset = s.text.toList.length ∧ s.Located finish.span.start ∧
        (s.tokens = .ok (s.scan ++ [finish]) ↔ ∀ t ∈ s.scan, t.kind.isBad = false) := by
  refine ⟨tiles_place s.integers s.text.toList [] rfl, fun t ht => kind_ne_finish_of_mem_scan ht,
    s.finish, rfl, rfl, rfl, ?_, isPlace_finish.1.located, s.tokens_eq_ok_iff⟩
  show (({} : Location).after s.text.toList).offset = _
  rw [Location.offset_after]
  exact Nat.zero_add _

end Script

end DialogueScript
