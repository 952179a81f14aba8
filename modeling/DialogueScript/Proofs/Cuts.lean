import DialogueScript.Proofs.NumberText
import DialogueScript.Proofs.Tiling

/-!
# Where tokens are cut off

A token is cut off where the next character does not go on with it.  What stands there otherwise,
and behind it, makes no difference to the token.

* `Kind.EndsBefore` — nothing follows a token that would go on with it;
* `Scan.munch_swap` — a good token is cut off the same in front of whatever does not go on with it;
* `Scan.munch_endsBefore` — and it is followed by nothing that does, unless by a point;
* `Scan.Piece.CutOff`, `Scan.Cuts` — a piece, or a row of pieces, is cut off a text;
* `Scan.pieces_of_cuts`, `Scan.cuts_pieces` — the pieces of a text are those that are cut off it;
* `Scan.Cuts.swap` — **a row of good pieces is cut off any text in which nothing goes on with the
  last of them**.
-/

namespace DialogueScript

/-- Whether a character goes on with a token of this kind. -/
def Kind.goesOn : Kind → Char → Bool
  | .keyword _, c | .name _, c => Text.isWordChar c
  | .number _, c => c.isDigit || c == '.'
  | .sign .assign, c => c == '='
  | _, _ => false

/-- Nothing follows that goes on with a token of this kind. -/
def Kind.EndsBefore (k : Kind) (rest : List Char) : Prop := ∀ c ∈ rest.head?, k.goesOn c = false

theorem Kind.endsBefore_nil (k : Kind) : k.EndsBefore [] := by simp [EndsBefore]

theorem Kind.endsBefore_congr {k : Kind} {rest rest' : List Char} (hhead : rest'.head? = rest.head?)
    (h : k.EndsBefore rest) : k.EndsBefore rest' := fun c hc => h c (hhead ▸ hc)

namespace Scan

/-! ## Tokens in front of other texts -/

variable {integers : Bool} {c : Char} {cs rest rest' : List Char}

/-- A closed text is closed whatever follows it. -/
theorem munchText_swap (hgood : (munchText cs).kind.isBad = false) :
    ∃ ds, (munchText cs).lexeme = Text.Quoted.doubleQuote :: ds ∧
      munchText (ds ++ rest') = { munchText cs with rest := rest' } := by
  have hbody : ∀ c ∈ cs.takeWhile (· != Text.Quoted.doubleQuote),
      (c != Text.Quoted.doubleQuote) = true := fun c hc =>
    List.mem_takeWhile_imp (p := (· != Text.Quoted.doubleQuote)) hc
  have hnot := List.head?_dropWhile_not (· != Text.Quoted.doubleQuote) cs
  unfold munchText at hgood ⊢
  dsimp only at hgood ⊢
  cases hdrop : cs.dropWhile (· != Text.Quoted.doubleQuote) with
  | nil =>
    rw [hdrop] at hgood
    cases hgood
  | cons quote more =>
    rw [hdrop] at hnot
    have hquote : ∀ c ∈ (quote :: rest').head?, (c != Text.Quoted.doubleQuote) = false := by
      intro c hc
      obtain rfl : quote = c := Option.some.inj hc
      exact hnot
    obtain ⟨htake, hrest⟩ := Number.takeWhile_dropWhile_append hbody hquote
    refine ⟨cs.takeWhile (· != Text.Quoted.doubleQuote) ++ [quote], rfl, ?_⟩
    rw [List.append_assoc, List.singleton_append, htake, hrest]

/-- The digits after a point are the same in front of what is neither a digit nor a point. -/
theorem splitPoint_swap (hdigit : ∀ c ∈ rest'.head?, c.isDigit = false)
    (hpoint : rest'.head? ≠ some '.') (cs : List Char) :
    splitPoint ((splitPoint cs).1 ++ rest') = ((splitPoint cs).1, rest') := by
  have hnone : splitPoint rest' = ([], rest') := by
    unfold splitPoint
    split
    · exact absurd rfl hpoint
    · rfl
  rw [splitPoint.eq_def cs]
  split
  · rename_i ds
    split
    · exact hnone
    · rename_i hne
      have hdigits : ∀ c ∈ ds.takeWhile Char.isDigit, c.isDigit = true :=
        fun c hc => List.mem_takeWhile_imp hc
      obtain ⟨htake, hdrop⟩ := Number.takeWhile_dropWhile_append hdigits hdigit
      rw [List.cons_append, splitPoint, htake, hdrop, if_neg hne]
  · exact hnone

theorem head?_splitPoint (cs : List Char) :
    (splitPoint cs).1 = [] ∨ (splitPoint cs).1.head? = some '.' := by
  unfold splitPoint
  split
  · split
    · exact .inl rfl
    · exact .inr rfl
  · exact .inl rfl

theorem munchNumber_swap (hdigit : ∀ c ∈ rest'.head?, c.isDigit = false)
    (hpoint : rest'.head? ≠ some '.') (cs : List Char) :
    munchNumber integers ((munchNumber integers cs).lexeme ++ rest') =
      { munchNumber integers cs with rest := rest' } := by
  have hwhole : ∀ c ∈ cs.takeWhile Char.isDigit, c.isDigit = true :=
    fun c hc => List.mem_takeWhile_imp hc
  have hfraction : ∀ c ∈ ((splitPoint (cs.dropWhile Char.isDigit)).1 ++ rest').head?,
      c.isDigit = false := by
    intro c hc
    rcases head?_splitPoint (cs.dropWhile Char.isDigit) with hnil | hsome
    · rw [hnil] at hc
      exact hdigit c hc
    · obtain ⟨ds, hds⟩ := List.head?_eq_some_iff.mp hsome
      rw [hds] at hc
      obtain rfl : '.' = c := Option.some.inj hc
      rfl
  obtain ⟨htake, hdrop⟩ := Number.takeWhile_dropWhile_append hwhole hfraction
  unfold munchNumber
  dsimp only
  rw [List.append_assoc, htake, hdrop, splitPoint_swap hdigit hpoint]

theorem munchWord_swap (hword : ∀ c ∈ rest'.head?, Text.isWordChar c = false) (cs : List Char) :
    munchWord ((munchWord cs).lexeme ++ rest') = { munchWord cs with rest := rest' } := by
  have hall : ∀ c ∈ cs.takeWhile Text.isWordChar, Text.isWordChar c = true :=
    fun c hc => List.mem_takeWhile_imp hc
  obtain ⟨htake, hdrop⟩ := Number.takeWhile_dropWhile_append hall hword
  unfold munchWord
  dsimp only
  rw [htake, hdrop]

theorem munchSign_swap (hends : (munchSign c cs).kind.EndsBefore rest') :
    ∃ ds, (munchSign c cs).lexeme = c :: ds ∧
      munchSign c (ds ++ rest') = { munchSign c cs with rest := rest' } := by
  unfold munchSign at hends ⊢
  split
  · rename_i hc
    obtain rfl := beq_iff_eq.mp hc
    split
    · exact ⟨['='], rfl, rfl⟩
    · rename_i hnot
      rw [if_pos hc] at hends
      refine ⟨[], rfl, ?_⟩
      rw [List.nil_append]
      split
      · have hequals : Kind.goesOn (.sign .assign) '=' = false := by
          split at hends
          · exact absurd rfl (hnot _)
          · exact hends '=' rfl
        cases hequals
      · rfl
  · split
    · exact ⟨[], rfl, rfl⟩
    · exact ⟨[], rfl, rfl⟩

/-- **A good token is the same in front of whatever does not go on with it.** -/
theorem munch_swap (hgood : (munch integers c cs).kind.isBad = false)
    (hends : (munch integers c cs).kind.EndsBefore rest') :
    ∃ ds, (munch integers c cs).lexeme = c :: ds ∧
      munch integers c (ds ++ rest') = { munch integers c cs with rest := rest' } := by
  unfold munch at hgood hends ⊢
  split
  · rename_i hc
    rw [if_pos hc] at hgood
    rw [beq_iff_eq.mp hc]
    exact munchText_swap hgood
  · rename_i hc
    rw [if_neg hc] at hgood hends
    split
    · rename_i hdigit
      rw [if_pos hdigit] at hgood hends
      have hkind : ∃ x, (munchNumber integers (c :: cs)).kind = .number x := by
        simp only [munchNumber] at hgood ⊢
        split at hgood
        · cases hgood
        · rename_i h
          exact ⟨_, if_neg h⟩
      obtain ⟨x, hx⟩ := hkind
      rw [hx] at hends
      have hnot : ∀ d ∈ rest'.head?, d.isDigit = false ∧ d ≠ '.' := by
        intro d hd
        have h := hends d hd
        simpa [Kind.goesOn] using h
      have hlexeme : ∃ ds, (munchNumber integers (c :: cs)).lexeme = c :: ds := by
        simp only [munchNumber, List.takeWhile_cons, hdigit, if_true, List.cons_append]
        exact ⟨_, rfl⟩
      obtain ⟨ds, hds⟩ := hlexeme
      have hswap := @munchNumber_swap integers rest' (fun d hd => (hnot d hd).1)
        (fun hpoint => (hnot '.' hpoint).2 rfl) (c :: cs)
      rw [hds] at hswap
      exact ⟨ds, hds, hswap⟩
    · rename_i hdigit
      rw [if_neg hdigit] at hgood hends
      split
      · rename_i hstart
        rw [if_pos hstart] at hgood hends
        have hword : ∀ d ∈ rest'.head?, Text.isWordChar d = false := by
          intro d hd
          have h := hends d hd
          simp only [munchWord] at h
          split at h
          · exact h
          · exact h
        have hlexeme : ∃ ds, (munchWord (c :: cs)).lexeme = c :: ds := by
          simp only [munchWord, List.takeWhile_cons, Text.isWordChar_of_isWordStart hstart, if_true]
          exact ⟨_, rfl⟩
        obtain ⟨ds, hds⟩ := hlexeme
        have hswap := munchWord_swap hword (c :: cs)
        rw [hds] at hswap
        exact ⟨ds, hds, hswap⟩
      · rename_i hstart
        rw [if_neg hstart] at hends
        exact munchSign_swap hends

theorem head?_dropWhile (p : Char → Bool) (cs : List Char) :
    ∀ c ∈ (cs.dropWhile p).head?, p c = false := by
  intro c hc
  have hnot := List.head?_dropWhile_not p cs
  rw [Option.mem_def.mp hc] at hnot
  exact hnot

theorem head?_splitPoint_rest (cs : List Char) (hcs : ∀ c ∈ cs.head?, c.isDigit = false) :
    ∀ c ∈ (splitPoint cs).2.head?, c.isDigit = false := by
  unfold splitPoint
  split
  · split
    · exact hcs
    · exact head?_dropWhile _ _
  · exact hcs

/-- A token ends before what follows it, unless that is a point. -/
theorem munch_endsBefore (hpoint : (munch integers c cs).rest.head? ≠ some '.') :
    (munch integers c cs).kind.EndsBefore (munch integers c cs).rest := by
  unfold munch at hpoint ⊢
  split
  · unfold munchText
    split
    · exact fun d _ => rfl
    · exact fun d _ => rfl
  · rename_i hc
    rw [if_neg hc] at hpoint
    split
    · rename_i hdigit
      rw [if_pos hdigit] at hpoint
      have hrest := head?_splitPoint_rest ((c :: cs).dropWhile Char.isDigit) (head?_dropWhile _ _)
      simp only [munchNumber] at hpoint ⊢
      intro d hd
      have hd' : d ≠ '.' := by
        rintro rfl
        exact hpoint hd
      split
      · rfl
      · simpa [Kind.goesOn, hd'] using hrest d hd
    · split
      · simp only [munchWord]
        split
        · exact head?_dropWhile _ _
        · exact head?_dropWhile _ _
      · unfold munchSign
        split
        · split
          · exact fun d _ => rfl
          · rename_i hnot
            intro d hd
            obtain ⟨ds, rfl⟩ := List.head?_eq_some_iff.mp hd
            have hne : d ≠ '=' := by
              rintro rfl
              exact hnot ds rfl
            simpa [Kind.goesOn] using hne
        · split
          · rename_i s hs
            have hassign : s ≠ .assign := by
              rintro rfl
              unfold Sign.ofChar? at hs
              split at hs <;> cases hs
            intro d _
            cases s with
            | assign => exact absurd rfl hassign
            | _ => rfl
          · exact fun d _ => rfl

/-! ## Pieces in front of other texts -/

/-- The character begins no gap. -/
structure Solid (c : Char) : Prop where
  space : isSpace c = false
  sharp : (c == '#') = false

/-- One character of a gap, or the end of it. -/
theorem splitGap_cons (comment : Bool) (c : Char) :
    (∃ comment', ∀ cs, splitGap comment (c :: cs) =
      (c :: (splitGap comment' cs).1, (splitGap comment' cs).2)) ∨
    Solid c ∧ ∀ cs, splitGap comment (c :: cs) = ([], c :: cs) := by
  cases comment with
  | true => exact .inl ⟨c != '\n', fun _ => rfl⟩
  | false =>
    by_cases hspace : isSpace c = true
    · refine .inl ⟨false, fun cs => ?_⟩
      rw [splitGap, hspace]
      rfl
    · by_cases hsharp : (c == '#') = true
      · refine .inl ⟨true, fun cs => ?_⟩
        rw [splitGap, Bool.eq_false_iff.mpr hspace, hsharp]
        rfl
      · refine .inr ⟨⟨Bool.eq_false_iff.mpr hspace, Bool.eq_false_iff.mpr hsharp⟩, fun cs => ?_⟩
        rw [splitGap, Bool.eq_false_iff.mpr hspace, Bool.eq_false_iff.mpr hsharp]
        rfl

theorem solid_of_splitGap {comment : Bool} {gap : List Char}
    (h : splitGap comment cs = (gap, c :: rest)) : Solid c := by
  induction cs generalizing comment gap with
  | nil => cases h
  | cons d cs ih =>
    rcases splitGap_cons comment d with ⟨comment', hstep⟩ | ⟨hsolid, hstep⟩
    · rw [hstep] at h
      have hrest : (splitGap comment' cs).2 = c :: rest := congrArg Prod.snd h
      exact ih (Prod.ext rfl hrest)
    · rw [hstep] at h
      cases h
      exact hsolid

/-- A gap is the same whatever follows the character behind it. -/
theorem splitGap_swap {comment : Bool} {gap : List Char}
    (h : splitGap comment (gap ++ c :: rest) = (gap, c :: rest)) :
    splitGap comment (gap ++ c :: rest') = (gap, c :: rest') := by
  induction gap generalizing comment with
  | nil =>
    rcases splitGap_cons comment c with ⟨comment', hstep⟩ | ⟨-, hstep⟩
    · rw [List.nil_append, hstep] at h
      cases h
    · exact hstep rest'
  | cons d gap ih =>
    rw [List.cons_append] at h ⊢
    rcases splitGap_cons comment d with ⟨comment', hstep⟩ | ⟨-, hstep⟩
    · rw [hstep] at h ⊢
      have hgap := congrArg (List.tail ∘ Prod.fst) h
      have hrest := congrArg Prod.snd h
      rw [ih (Prod.ext hgap hrest)]
    · rw [hstep] at h
      cases h

theorem splitGap_blanks {gap : List Char} (hgap : ∀ d ∈ gap, isSpace d = true) (hc : Solid c) :
    splitGap false (gap ++ c :: rest) = (gap, c :: rest) := by
  induction gap with
  | nil =>
    rw [List.nil_append, splitGap, hc.space, hc.sharp]
    rfl
  | cons d gap ih =>
    have hd : isSpace d = true := hgap d List.mem_cons_self
    rw [List.cons_append, splitGap, hd, ih fun d hd => hgap d (List.mem_cons_of_mem _ hd)]
    rfl

/-- The piece comes first in a text that goes on with `rest`. -/
structure Piece.CutOff (integers : Bool) (p : Piece) (rest : List Char) : Prop where
  gap : splitGap false (p.gap ++ (p.lexeme ++ rest)) = (p.gap, p.lexeme ++ rest)
  token : ∃ c cs, p.lexeme = c :: cs ∧ munch integers c (cs ++ rest) = ⟨p.kind, p.lexeme, rest⟩

namespace Piece.CutOff

variable {p : Piece}

/-- A good piece comes first before whatever does not go on with it. -/
theorem swap (h : p.CutOff integers rest) (hgood : p.kind.isBad = false)
    (hends : p.kind.EndsBefore rest') : p.CutOff integers rest' := by
  obtain ⟨c, cs, hlexeme, hmunch⟩ := h.token
  have hgap := h.gap
  rw [hlexeme, List.cons_append] at hgap
  have hkind : (munch integers c (cs ++ rest)).kind = p.kind := by rw [hmunch]
  obtain ⟨ds, hds, hswap⟩ := munch_swap (hkind ▸ hgood) (hkind ▸ hends)
  obtain rfl : cs = ds := by
    rw [hmunch] at hds
    exact (List.cons_eq_cons.mp (hlexeme.symm.trans hds)).2
  refine ⟨?_, c, cs, hlexeme, ?_⟩
  · rw [hlexeme, List.cons_append]
    exact splitGap_swap hgap
  · rw [hswap, hmunch]

/-- What follows a piece does not go on with it, unless it is a point. -/
theorem endsBefore (h : p.CutOff integers rest) (hpoint : rest.head? ≠ some '.') :
    p.kind.EndsBefore rest := by
  obtain ⟨c, cs, -, hmunch⟩ := h.token
  have hends := @munch_endsBefore integers c (cs ++ rest)
  rw [hmunch] at hends
  exact hends hpoint

/-- Other blanks in front make no difference. -/
theorem regap (h : p.CutOff integers rest) {gap : List Char}
    (hgap : ∀ c ∈ gap, isSpace c = true) : Piece.CutOff integers { p with gap } rest := by
  obtain ⟨c, cs, hlexeme, hmunch⟩ := h.token
  have hold := h.gap
  rw [hlexeme, List.cons_append] at hold
  refine ⟨?_, c, cs, hlexeme, hmunch⟩
  show splitGap false (gap ++ (p.lexeme ++ rest)) = (gap, p.lexeme ++ rest)
  rw [hlexeme, List.cons_append]
  exact splitGap_blanks hgap (solid_of_splitGap hold)

/-- No good piece begins with a point. -/
theorem head?_ne_point (h : p.CutOff integers rest) (hgood : p.kind.isBad = false) :
    (p.gap ++ (p.lexeme ++ rest)).head? ≠ some '.' := by
  intro hhead
  obtain ⟨c, cs, hlexeme, hmunch⟩ := h.token
  have hgap := h.gap
  obtain ⟨ds, hds⟩ := List.head?_eq_some_iff.mp hhead
  rw [hds] at hgap
  have hpoint : splitGap false ('.' :: ds) = ([], '.' :: ds) := rfl
  rw [hpoint, hlexeme, List.cons_append] at hgap
  -- a point is no token
  obtain rfl : '.' = c := (List.cons_eq_cons.mp (congrArg Prod.snd hgap)).1
  have hkind : .bad (String.singleton '.') = p.kind := congrArg Munch.kind hmunch
  rw [← hkind] at hgood
  cases hgood

end Piece.CutOff

/-- The pieces come first, one after the other, in a text that goes on with `rest`. -/
def Cuts (integers : Bool) : List Piece → List Char → Prop
  | [], _ => True
  | p :: ps, rest => p.CutOff integers (join ps ++ rest) ∧ Cuts integers ps rest

theorem join_cons (p : Piece) (ps : List Piece) : join (p :: ps) = p.gap ++ p.lexeme ++ join ps :=
  rfl

theorem join_append (ps qs : List Piece) : join (ps ++ qs) = join ps ++ join qs := by
  simp [join]

theorem cuts_append {ps qs : List Piece} :
    Cuts integers (ps ++ qs) rest ↔ Cuts integers ps (join qs ++ rest) ∧ Cuts integers qs rest := by
  induction ps with
  | nil => simp [Cuts]
  | cons p ps ih => simp [Cuts, ih, join_append, and_assoc]

/-- The pieces of a text come first in it. -/
theorem cuts_pieces (integers : Bool) (cs : List Char) :
    Cuts integers (pieces integers cs).1 (pieces integers cs).2 := by
  fun_induction pieces integers cs with
  | case1 cs gap h => trivial
  | case2 cs gap c rest h m more last hm ih =>
    have hlexeme : m.lexeme ++ m.rest = c :: rest := munch_lexeme_append_rest integers c rest
    have hne : m.lexeme ≠ [] := munch_lexeme_ne_nil integers c rest
    have hjoin := pieces_join integers m.rest
    have hgap := gap_append_rest false cs
    rw [hm] at ih hjoin
    rw [h] at hgap
    refine ⟨⟨?_, ?_⟩, ih⟩
    · show splitGap false (gap ++ (m.lexeme ++ (join more ++ last))) = _
      rw [hjoin, hlexeme, hgap, h]
    · obtain ⟨d, ds, hds⟩ := List.exists_cons_of_ne_nil hne
      rw [hds, List.cons_append] at hlexeme
      obtain ⟨rfl, hrest⟩ := List.cons_eq_cons.mp hlexeme
      refine ⟨d, ds, hds, ?_⟩
      rw [hjoin, hrest]

/-- What comes first in a text are its first pieces. -/
theorem pieces_of_cuts {ps : List Piece} (h : Cuts integers ps rest) :
    pieces integers (join ps ++ rest) =
      (ps ++ (pieces integers rest).1, (pieces integers rest).2) := by
  induction ps with
  | nil => rfl
  | cons p ps ih =>
    obtain ⟨hp, hps⟩ := h
    obtain ⟨c, cs, hlexeme, hmunch⟩ := hp.token
    have hgap := hp.gap
    rw [hlexeme, List.cons_append] at hgap
    rw [join_cons, List.append_assoc, List.append_assoc, hlexeme, List.cons_append, pieces]
    split
    · rename_i heq
      rw [hgap] at heq
      cases heq
    · rename_i heq
      rw [hgap] at heq
      cases heq
      dsimp only
      rw [hmunch, ih hps]
      rfl

/-- **Good pieces come first in every text in which nothing goes on with the last of them.** -/
theorem Cuts.swap {ps : List Piece} (h : Cuts integers ps rest)
    (hgood : ∀ p ∈ ps, p.kind.isBad = false)
    (hends : ∀ p ∈ ps.getLast?, p.kind.EndsBefore rest') : Cuts integers ps rest' := by
  induction ps with
  | nil => trivial
  | cons p ps ih =>
    obtain ⟨hp, hps⟩ := h
    have hpgood := hgood p List.mem_cons_self
    cases ps with
    | nil => exact ⟨hp.swap hpgood (hends p rfl), trivial⟩
    | cons q qs =>
      have hqgood := hgood q (List.mem_cons_of_mem _ List.mem_cons_self)
      refine ⟨hp.swap hpgood ?_, ih hps (fun p hp => hgood p (List.mem_cons_of_mem _ hp))
        fun p hp => hends p (by rw [List.getLast?_cons_cons]; exact hp)⟩
      -- the next piece is still the same
      have hpoint : (join (q :: qs) ++ rest).head? ≠ some '.' := by
        rw [join_cons, List.append_assoc, List.append_assoc]
        exact hps.1.head?_ne_point hqgood
      refine Kind.endsBefore_congr ?_ (hp.endsBefore hpoint)
      obtain ⟨c, cs, hlexeme, -⟩ := hps.1.token
      rw [join_cons, hlexeme]
      cases q.gap <;> rfl

end Scan

end DialogueScript
