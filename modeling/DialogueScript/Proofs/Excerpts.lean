import Mathlib.Tactic.ByContra
import DialogueScript.Proofs.Places

/-!
# Lines of excerpts

The lines that are quoted are cut at more characters than the lines that locations count.

* `Text.excerptNumber` — the number of the excerpt line that a text has come to, and
  `Text.excerptLine?_around`, that line;
* `Text.BreaksPlainly` — a text has no line ends but line feeds, alone or after a carriage return;
* `Text.excerptNumber_eq_iff` — exactly then the two ways to count lines agree;
* `Text.excerpt_covers`, `Text.extract_excerpt` — and then the quoted line has the characters of the
  text in the columns that locations give them.
-/

namespace DialogueScript.Text

variable {isBreak : Char → Bool}

theorem pieces_head? (cs : List Char) : (pieces isBreak cs)[0]? =
    if cs = [] then none else some (cs.takeWhile fun c => !isBreak c) := by
  induction cs with
  | nil => rfl
  | cons c rest ih =>
    rw [pieces]
    by_cases hc : isBreak c
    · simp [hc]
    · cases hp : pieces isBreak rest with
      | nil =>
        rw [hp] at ih
        have hnil : rest = [] := by
          by_contra hne
          simp [hne] at ih
        simp [hnil, hc]
      | cons line lines =>
        rw [hp] at ih
        have hne : rest ≠ [] := by
          rintro rfl
          simp at ih
        simp only [hne, if_false, List.getElem?_cons_zero, Option.some.injEq] at ih
        simp [hc, ih]

/-- Behind a break the pieces are those of the rest. -/
theorem pieces_drop (front : List Char) {b : Char} (hb : isBreak b = true) (back : List Char) :
    (pieces isBreak (front ++ b :: back)).drop (front.countP isBreak + 1) =
      pieces isBreak back := by
  induction front with
  | nil => simp [pieces, hb]
  | cons c front ih =>
    rw [List.cons_append, pieces]
    by_cases hc : isBreak c
    · simpa [hc] using ih
    · rw [List.countP_cons_of_neg hc]
      cases hp : pieces isBreak (front ++ b :: back) with
      | nil =>
        have hne : (pieces isBreak (front ++ b :: back))[0]? ≠ none := by
          rw [pieces_head?]
          simp
        rw [hp] at hne
        exact absurd rfl hne
      | cons line lines =>
        rw [hp] at ih
        simpa [hc] using ih

/-- The piece that a text has come to, whose last break is followed by `part`. -/
theorem pieces_countP {whole part : List Char}
    (hwhole : whole = [] ∨ ∃ w b, whole = w ++ [b] ∧ isBreak b = true)
    (hpart : ∀ c ∈ part, isBreak c = false) (back : List Char) :
    (pieces isBreak (whole ++ (part ++ back)))[(whole ++ part).countP isBreak]? =
      (pieces isBreak (part ++ back))[0]? := by
  have hzero : part.countP isBreak = 0 := by
    rw [List.countP_eq_zero]
    intro c hc
    simp [hpart c hc]
  rw [List.countP_append, hzero, Nat.add_zero]
  rcases hwhole with rfl | ⟨w, b, rfl, hb⟩
  · rfl
  · have hcount : (w ++ [b]).countP isBreak = w.countP isBreak + 1 := by
      simp [List.countP_append, hb]
    have hdrop := pieces_drop w hb (part ++ back)
    rw [hcount, List.append_assoc, List.singleton_append, ← hdrop, List.getElem?_drop,
      Nat.add_zero]

/-! ## Pairs of a carriage return and a line feed -/

/-- Texts that meet in no pair can be joined one by one. -/
theorem joinPairs_append {a b : List Char}
    (h : ¬ (a.getLast? = some '\r' ∧ b.head? = some '\n')) :
    joinPairs (a ++ b) = joinPairs a ++ joinPairs b := by
  fun_induction joinPairs a with
  | case1 => rfl
  | case2 rest ih =>
    have hrest : ¬ (rest.getLast? = some '\r' ∧ b.head? = some '\n') := by
      rintro ⟨hr, hb⟩
      exact h ⟨by simp [List.getLast?_cons, hr], hb⟩
    simp [joinPairs, ih hrest]
  | case3 c rest hpair ih =>
    have hrest : ¬ (rest.getLast? = some '\r' ∧ b.head? = some '\n') := by
      rintro ⟨hr, hb⟩
      exact h ⟨by simp [List.getLast?_cons, hr], hb⟩
    rw [List.cons_append, joinPairs, ih hrest, List.cons_append]
    intro more hc hmore
    cases rest with
    | nil =>
      subst hc
      exact h ⟨rfl, by rw [show b = '\n' :: more from hmore]; rfl⟩
    | cons d rest =>
      rw [List.cons_append, List.cons.injEq] at hmore
      exact hpair rest hc (by rw [hmore.1])

theorem count_joinPairs (cs : List Char) : (joinPairs cs).count '\n' = cs.count '\n' := by
  fun_induction joinPairs cs with
  | case1 => rfl
  | case2 rest ih => simp [ih]
  | case3 c rest hpair ih => simp [List.count_cons, ih]

theorem joinPairs_of_no_newline {cs : List Char} (h : '\n' ∉ cs) : joinPairs cs = cs := by
  fun_induction joinPairs cs with
  | case1 => rfl
  | case2 rest ih => simp at h
  | case3 c rest hpair ih =>
    rw [List.mem_cons, not_or] at h
    rw [ih h.2]

/-- Whole lines stay whole lines. -/
theorem joinPairs_whole (w : List Char) : ∃ w', joinPairs (w ++ ['\n']) = w' ++ ['\n'] := by
  fun_induction joinPairs w with
  | case1 => exact ⟨[], rfl⟩
  | case2 rest ih =>
    obtain ⟨w', hw⟩ := ih
    exact ⟨'\n' :: w', by simp [joinPairs, hw]⟩
  | case3 c rest hpair ih =>
    obtain ⟨w', hw⟩ := ih
    by_cases hjoin : c = '\r' ∧ rest = []
    · rw [hjoin.1, hjoin.2]
      exact ⟨[], rfl⟩
    · refine ⟨c :: w', ?_⟩
      rw [List.cons_append, joinPairs, hw, List.cons_append]
      intro more hc hmore
      cases rest with
      | nil => exact hjoin ⟨hc, rfl⟩
      | cons d rest =>
        rw [List.cons_append, List.cons.injEq] at hmore
        exact hpair rest hc (by rw [hmore.1])

theorem mem_joinPairs_of_getLast? {cs : List Char} (h : cs.getLast? = some '\r') :
    '\r' ∈ joinPairs cs := by
  obtain ⟨front, rfl⟩ : ∃ front, cs = front ++ ['\r'] := by
    rw [List.getLast?_eq_some_iff] at h
    exact h
  rw [joinPairs_append (by simp)]
  simp [joinPairs]

/-! ## Excerpt lines -/

/-- The number of the excerpt line that a text has come to. -/
def excerptNumber (cs : List Char) : Nat := (joinPairs cs).countP isLineBreak + 1

/-- Every line of the text ends with a line feed, alone or after a carriage return. -/
def BreaksPlainly (cs : List Char) : Prop := ∀ c ∈ joinPairs cs, isLineBreak c = true → c = '\n'

/-- The excerpt line with the number that a text has come to: what the text has of it already, and
what follows up to the next break. -/
theorem excerptLine?_around {s : String} {pre post whole part : List Char}
    (htext : s.toList = pre ++ post)
    (hpair : ¬ (pre.getLast? = some '\r' ∧ post.head? = some '\n'))
    (hpre : joinPairs pre = whole ++ part)
    (hwhole : whole = [] ∨ ∃ w b, whole = w ++ [b] ∧ isLineBreak b = true)
    (hpart : ∀ c ∈ part, isLineBreak c = false) :
    excerptLine? s (excerptNumber pre) =
      if part ++ joinPairs post = [] then none
      else some (String.ofList (part ++ (joinPairs post).takeWhile fun c => !isLineBreak c)) := by
  have hlines : excerptLines s.toList =
      pieces isLineBreak (whole ++ (part ++ joinPairs post)) := by
    rw [excerptLines, htext, joinPairs_append hpair, hpre, List.append_assoc]
  have htake : (part ++ joinPairs post).takeWhile (fun c => !isLineBreak c) =
      part ++ (joinPairs post).takeWhile fun c => !isLineBreak c := by
    apply List.takeWhile_append_of_pos
    intro c hc
    simp [hpart c hc]
  have hnumber : excerptNumber pre ≠ 0 := Nat.succ_ne_zero _
  rw [excerptLine?, if_neg hnumber, hlines, excerptNumber, hpre, Nat.add_sub_cancel,
    pieces_countP hwhole hpart, pieces_head?]
  split
  · rfl
  · rw [htake]
    rfl

theorem countP_isLineBreak_eq_iff (cs : List Char) : cs.countP isLineBreak = cs.count '\n' ↔
    ∀ c ∈ cs, isLineBreak c = true → c = '\n' := by
  induction cs with
  | nil => simp
  | cons c cs ih =>
    have hle : cs.count '\n' ≤ cs.countP isLineBreak := by
      apply List.countP_mono_left
      intro d _ hd
      rw [beq_iff_eq.mp hd]
      rfl
    rw [List.forall_mem_cons, ← ih]
    by_cases hc : c = '\n'
    · have hbreak : isLineBreak '\n' = true := rfl
      simp [hc, hbreak]
    · by_cases hb : isLineBreak c
      · simp [hc, hb]
        omega
      · simp [hc, hb]

/-- **The two ways to count lines agree exactly on texts that break plainly.** -/
theorem excerptNumber_eq_iff {cs : List Char} :
    excerptNumber cs = (({} : Location).after cs).line ↔ BreaksPlainly cs := by
  have hline : (({} : Location).after cs).line = (joinPairs cs).count '\n' + 1 := by
    rw [Location.line_after, count_joinPairs]
    exact Nat.add_comm _ _
  rw [hline, excerptNumber, Nat.add_right_cancel_iff]
  exact countP_isLineBreak_eq_iff _

/-- The quoted line has the start of the line that the text has come to. -/
theorem excerpt_covers {s line : String} {whole part post : List Char}
    (htext : s.toList = (whole ++ part) ++ post)
    (hwhole : whole = [] ∨ ∃ w, whole = w ++ ['\n']) (hpart : '\n' ∉ part)
    (hplain : BreaksPlainly (whole ++ part))
    (hline : excerptLine? s (({} : Location).after (whole ++ part)).line = some line) :
    ∃ rest, line.toList = part ++ rest := by
  have hlast : (whole ++ part).getLast? ≠ some '\r' := fun h =>
    absurd (hplain '\r' (mem_joinPairs_of_getLast? h) rfl) (by decide)
  have hmeet : ¬ (whole.getLast? = some '\r' ∧ part.head? = some '\n') := by
    rintro ⟨-, h⟩
    exact hpart (List.mem_of_head? h)
  have hjoin : joinPairs (whole ++ part) = joinPairs whole ++ part := by
    rw [joinPairs_append hmeet, joinPairs_of_no_newline hpart]
  have hbreaks : joinPairs whole = [] ∨
      ∃ w b, joinPairs whole = w ++ [b] ∧ isLineBreak b = true := by
    rcases hwhole with rfl | ⟨w, rfl⟩
    · exact .inl rfl
    · obtain ⟨w', hw⟩ := joinPairs_whole w
      exact .inr ⟨w', '\n', hw, rfl⟩
  have hno : ∀ c ∈ part, isLineBreak c = false := by
    intro c hc
    by_contra hbreak
    have hmem : c ∈ joinPairs (whole ++ part) := by
      rw [hjoin]
      exact List.mem_append_right _ hc
    have hnewline := hplain c hmem (by simpa using hbreak)
    exact hpart (hnewline ▸ hc)
  rw [← excerptNumber_eq_iff.mpr hplain,
    excerptLine?_around htext (fun h => hlast h.1) hjoin hbreaks hno] at hline
  split at hline
  · cases hline
  · cases hline
    exact ⟨_, String.toList_ofList⟩

/-- The columns of the quoted line have the characters that the text has between two places of one
line. -/
theorem extract_excerpt {s line : String} {pre mid post : List Char}
    (htext : s.toList = pre ++ (mid ++ post)) (hmid : '\n' ∉ mid)
    (hplain : BreaksPlainly (pre ++ mid))
    (hline : excerptLine? s (({} : Location).after pre).line = some line) :
    line.toList.extract ((({} : Location).after pre).column - 1)
      ((({} : Location).after (pre ++ mid)).column - 1) = mid := by
  obtain ⟨whole, part, rfl, hwhole, hpart⟩ := Location.exists_lines pre
  have hboth : '\n' ∉ part ++ mid := by
    rw [List.mem_append, not_or]
    exact ⟨hpart, hmid⟩
  have hstart := Location.after_lines hwhole hpart
  have hstop := Location.after_lines hwhole hboth
  rw [List.append_assoc] at hplain ⊢
  rw [hstart] at hline
  have htext' : s.toList = (whole ++ (part ++ mid)) ++ post := by
    rw [htext]
    simp only [List.append_assoc]
  have hline' :
      excerptLine? s (({} : Location).after (whole ++ (part ++ mid))).line = some line := by
    rw [hstop]
    exact hline
  obtain ⟨rest, hrest⟩ := excerpt_covers htext' hwhole hboth hplain hline'
  rw [hstart, hstop, hrest, List.extract_eq_take_drop]
  simp

end DialogueScript.Text
