import DialogueScript.Proofs.MaximalMunch
import DialogueScript.Proofs.Slices

/-!
# Tokens in another spacing

Every piece of a script is found again from its lexeme alone, whatever stood around it, as long as a
blank or a comment follows.  Only a quote that is never closed looks further ahead: behind it no
other quote may follow, and in the script none does.

* `Scan.Laid` — a text in which lexemes stand in order, with gaps between them, so also lexemes
  that are joined by blanks (`Scan.laid_joined`);
* `Scan.munch_parted` — a token, or a piece that is none, is cut off the same in front of a gap;
* `Scan.cuts_of_laid` — the pieces of a script, in any other spacing;
* `Script.SameReading` — two scripts have the same tokens, and derive the same program;
* `Script.reading_laid` — **the lexemes of a script with other blanks between them are the same
  tokens and the same program**, and so they are with comments, if all pieces are tokens.
-/

namespace DialogueScript

namespace Scan

open Text.Quoted (doubleQuote)

/-- Blanks only; whatever follows them. -/
def Blanks (gap _after : List Char) : Prop := ∀ c ∈ gap, c ∈ [' ', '\t', '\n', '\x0c', '\r']

/-- Nothing follows, or a blank or a comment. -/
def Parted (rest : List Char) : Prop := ∀ c ∈ rest.head?, isSpace c = true ∨ c = '#'

/-- A text in which lexemes stand in order, with gaps of one sort: at least one character of a gap
between any two of them, and maybe a gap in front of the first and behind the last. -/
inductive Laid (IsGap : List Char → List Char → Prop) : List (List Char) → List Char → Prop
  | last {gap : List Char} (hgap : IsGap gap []) : Laid IsGap [] gap
  | lexeme {gap lexeme rest : List Char} {lexemes : List (List Char)}
      (hgap : IsGap gap (lexeme ++ rest)) (hparted : Parted rest) (h : Laid IsGap lexemes rest) :
      Laid IsGap (lexeme :: lexemes) (gap ++ (lexeme ++ rest))

variable {integers : Bool} {c : Char} {cs rest : List Char}

/-- Blanks are a gap without comments. -/
theorem Blanks.gap {gap after : List Char} (h : Blanks gap after) : Gap gap after := by
  induction gap with
  | nil => exact .nil after
  | cons d gap ih =>
    refine .blank (h d List.mem_cons_self) (ih ?_)
    intro c hc
    exact h c (List.mem_cons_of_mem d hc)

theorem Blanks.no_quote {gap after : List Char} (h : Blanks gap after) : doubleQuote ∉ gap := by
  intro hmem
  have hblank := h doubleQuote hmem
  simp [doubleQuote] at hblank

/-- The characters of a text are those of its gaps and of its lexemes. -/
theorem Laid.mem {IsGap : List Char → List Char → Prop} {lexemes : List (List Char)}
    {text : List Char} (h : Laid IsGap lexemes text) {d : Char} (hd : d ∈ text) :
    (∃ gap after, IsGap gap after ∧ d ∈ gap) ∨ ∃ l ∈ lexemes, d ∈ l := by
  induction h with
  | last hgap => exact .inl ⟨_, _, hgap, hd⟩
  | lexeme hgap _ _ ih =>
    simp only [List.mem_append] at hd
    rcases hd with hd | hd | hd
    · exact .inl ⟨_, _, hgap, hd⟩
    · exact .inr ⟨_, List.mem_cons_self, hd⟩
    · rcases ih hd with h | ⟨l, hl, hd⟩
      · exact .inl h
      · exact .inr ⟨l, List.mem_cons_of_mem _ hl, hd⟩

/-- Lexemes joined by blanks: each but the first with some in front of it. -/
def joined (first : List Char) (more : List (List Char × List Char)) : List Char :=
  first ++ more.flatMap fun m => m.1 ++ m.2

theorem parted_blanks {gap : List Char} (hgap : Blanks gap []) (hne : gap ≠ []) :
    Parted (gap ++ rest) := by
  intro c hc
  obtain ⟨d, ds, rfl⟩ := List.exists_cons_of_ne_nil hne
  obtain rfl : d = c := Option.some.inj hc
  exact .inl (isSpace_iff.mpr (hgap d List.mem_cons_self))

/-- Lexemes that are joined by blanks, at least one between any two, are laid out with blanks. -/
theorem laid_joined {first gap : List Char} {more : List (List Char × List Char)}
    (hgap : Blanks gap []) (hmore : ∀ m ∈ more, m.1 ≠ [] ∧ Blanks m.1 []) :
    Laid Blanks (first :: more.map (·.2)) (gap ++ joined first more) := by
  induction more generalizing first gap with
  | nil =>
    refine .lexeme hgap ?_ (.last (List.forall_mem_nil _))
    simp [Parted]
  | cons m more ih =>
    obtain ⟨hne, hblanks⟩ := hmore m List.mem_cons_self
    have hlaid := @ih m.2 m.1 hblanks fun m hm => hmore m (List.mem_cons_of_mem _ hm)
    have hjoined : joined first (m :: more) = first ++ (m.1 ++ joined m.2 more) := by
      simp [joined]
    rw [hjoined]
    exact .lexeme hgap (parted_blanks hblanks hne) hlaid

/-! ## Pieces in front of a gap -/

/-- No token goes on in a blank or in a comment. -/
theorem Parted.endsBefore (h : Parted rest) (k : Kind) : k.EndsBefore rest := by
  intro c hc
  rcases h c hc with hspace | rfl
  · have hapart : Apart [c] := by simpa [Apart] using hspace
    exact hapart.endsBefore k c rfl
  · cases k with
    | sign s => cases s <;> rfl
    | _ => rfl

theorem Parted.not_digit (h : Parted rest) : ∀ c ∈ rest.head?, c.isDigit = false := by
  intro c hc
  rcases h c hc with hspace | rfl
  · exact isDigit_of_isSpace hspace
  · rfl

theorem Parted.not_point (h : Parted rest) : rest.head? ≠ some '.' := by
  intro hhead
  rcases h '.' hhead with hspace | hsharp
  · cases hspace
  · cases hsharp

/-- Only a quote that is never closed has a quote as its lexeme. -/
theorem quote_of_munch (h : (munch integers c cs).lexeme = [doubleQuote]) :
    c = doubleQuote ∧ doubleQuote ∉ cs := by
  have happend := munch_lexeme_append_rest integers c cs
  rw [h, List.singleton_append] at happend
  obtain ⟨rfl, -⟩ := List.cons_eq_cons.mp happend
  have hmunch : munch integers doubleQuote cs = munchText cs := rfl
  rw [hmunch] at h
  refine ⟨rfl, fun hmem => ?_⟩
  unfold munchText at h
  dsimp only at h
  cases hdrop : cs.dropWhile (· != doubleQuote) with
  | nil =>
    have hnone := List.dropWhile_eq_nil_iff.mp hdrop doubleQuote hmem
    simp at hnone
  | cons quote more =>
    rw [hdrop] at h
    simp at h

theorem munchText_unclosed (h : doubleQuote ∉ cs) :
    munchText cs = ⟨.bad (String.ofList [doubleQuote]), [doubleQuote], cs⟩ := by
  have hdrop : cs.dropWhile (· != doubleQuote) = [] := by
    rw [List.dropWhile_eq_nil_iff]
    intro c hc
    rw [bne_iff_ne]
    rintro rfl
    exact h hc
  unfold munchText
  rw [hdrop]
  rfl

/-- A character that is no token is none in front of anything, unless it is a quote. -/
theorem munch_character {rest' : List Char} (hc : c.isDigit = false)
    (hbad : (munch integers c cs).kind.isBad = true)
    (hquote : c = doubleQuote → doubleQuote ∉ rest') :
    munch integers c rest' = ⟨.bad (String.ofList [c]), [c], rest'⟩ := by
  unfold munch at hbad ⊢
  by_cases hq : (c == doubleQuote) = true
  · obtain rfl := beq_iff_eq.mp hq
    exact munchText_unclosed (hquote rfl)
  · simp only [hq, hc, Bool.false_eq_true, if_false] at hbad ⊢
    by_cases hstart : Text.isWordStart c = true
    · rw [if_pos hstart, munchWord_isBad] at hbad
      cases hbad
    · simp only [hstart, Bool.false_eq_true, if_false] at hbad ⊢
      unfold munchSign at hbad ⊢
      by_cases hassign : (c == '=') = true
      · rw [if_pos hassign] at hbad
        split at hbad <;> cases hbad
      · rw [if_neg hassign] at hbad ⊢
        cases hs : Sign.ofChar? c with
        | none => rfl
        | some s =>
          rw [hs] at hbad
          cases hbad

/-- **Whatever is cut off a text is cut off the same in front of a gap.**  Behind a quote that is
never closed there must be no quote. -/
theorem munch_parted {rest' : List Char} (hrest : Parted rest')
    (hquote : (munch integers c cs).lexeme = [doubleQuote] → doubleQuote ∉ rest') :
    ∃ ds, (munch integers c cs).lexeme = c :: ds ∧
      munch integers c (ds ++ rest') = { munch integers c cs with rest := rest' } := by
  cases hgood : (munch integers c cs).kind.isBad with
  | false => exact munch_swap hgood (hrest.endsBefore _)
  | true =>
    obtain ⟨hkind, ⟨hc, -, -⟩ | ⟨hc, hlexeme⟩⟩ := munch_bad hgood
    · -- digits that are no number without a fraction
      have hmunch : ∀ more, munch integers c more = munchNumber integers (c :: more) :=
        fun _ => munch_eq_munchNumber hc
      have hswap := @munchNumber_swap integers rest' hrest.not_digit hrest.not_point (c :: cs)
      obtain ⟨ds, hds⟩ : ∃ ds, (munchNumber integers (c :: cs)).lexeme = c :: ds := by
        simp only [munchNumber, List.takeWhile_cons, hc, if_true, List.cons_append]
        exact ⟨_, rfl⟩
      rw [hds, List.cons_append] at hswap
      refine ⟨ds, ?_, ?_⟩
      · rw [hmunch cs, hds]
      · rw [hmunch (ds ++ rest'), hswap, hmunch cs]
    · refine ⟨[], hlexeme, ?_⟩
      have hnone : c = doubleQuote → doubleQuote ∉ rest' := by
        rintro rfl
        exact hquote hlexeme
      dsimp only
      rw [List.nil_append, munch_character hc hgood hnone, hkind, hlexeme]

/-! ## Rows of pieces in another spacing -/

/-- What a piece is, and how it is written. -/
def Piece.content (p : Piece) : Kind × List Char := (p.kind, p.lexeme)

namespace Piece.CutOff

variable {p : Piece}

theorem solid (h : p.CutOff integers rest) : ∀ more, ∀ c ∈ (p.lexeme ++ more).head?, Solid c := by
  intro more c hc
  obtain ⟨d, ds, hlexeme, -⟩ := h.token
  have hgap := h.gap
  rw [hlexeme, List.cons_append] at hgap hc
  obtain rfl : d = c := Option.some.inj hc
  exact solid_of_splitGap hgap

/-- Behind a quote that is never closed there is no quote. -/
theorem no_quote (h : p.CutOff integers rest) (hquote : p.lexeme = [doubleQuote]) :
    doubleQuote ∉ rest := by
  obtain ⟨c, cs, hlexeme, hmunch⟩ := h.token
  rw [hquote] at hlexeme
  obtain ⟨-, rfl⟩ := List.cons_eq_cons.mp hlexeme
  have hsame : (munch integers c ([] ++ rest)).lexeme = [doubleQuote] := by rw [hmunch, hquote]
  exact (quote_of_munch hsame).2

/-- A piece is cut off the same behind another gap and in front of one. -/
theorem parted (h : p.CutOff integers rest) {gap rest' : List Char}
    (hgap : Gap gap (p.lexeme ++ rest')) (hrest : Parted rest')
    (hquote : p.lexeme = [doubleQuote] → doubleQuote ∉ rest') :
    Piece.CutOff integers { p with gap } rest' := by
  obtain ⟨c, cs, hlexeme, hmunch⟩ := h.token
  have hsame : (munch integers c (cs ++ rest)).lexeme = p.lexeme := by rw [hmunch]
  obtain ⟨ds, hds, hswap⟩ := munch_parted hrest (hsame ▸ hquote)
  obtain rfl : cs = ds := by
    rw [hsame, hlexeme] at hds
    exact (List.cons_eq_cons.mp hds).2
  refine ⟨splitGap_of_gap hgap (h.solid rest'), c, cs, hlexeme, ?_⟩
  rw [hswap, hmunch]

end Piece.CutOff

/-- **The pieces of a text in another spacing.**  They are cut off it, with the new gaps.  If there
is a quote that is never closed, no gap may have a quote in it. -/
theorem cuts_of_laid {IsGap : List Char → List Char → Prop}
    (hgaps : ∀ gap after, IsGap gap after → Gap gap after) {ps : List Piece} {text : List Char}
    (hcuts : Cuts integers ps rest) (hlaid : Laid IsGap (ps.map (·.lexeme)) text)
    (hquotes : [doubleQuote] ∈ ps.map (·.lexeme) →
      ∀ gap after, IsGap gap after → doubleQuote ∉ gap) :
    ∃ qs gap, text = join qs ++ gap ∧ Gap gap [] ∧ Cuts integers qs gap ∧
      qs.map Piece.content = ps.map Piece.content := by
  induction ps generalizing text with
  | nil =>
    cases hlaid with
    | last hgap => exact ⟨[], text, rfl, hgaps _ _ hgap, trivial, rfl⟩
  | cons p ps ih =>
    obtain ⟨hp, hps⟩ := hcuts
    cases hlaid with
    | @lexeme gap _ rest' _ hgap hparted hrest =>
      obtain ⟨qs, last, rfl, hlast, hqs, hcontent⟩ :=
        ih hps hrest fun hmem => hquotes (List.mem_cons_of_mem _ hmem)
      have hquote : p.lexeme = [doubleQuote] → doubleQuote ∉ join qs ++ last := by
        intro hlexeme hmem
        have hbehind := hp.no_quote hlexeme
        have hnogap := hquotes (hlexeme ▸ List.mem_cons_self)
        -- a quote in the new text would be one of a lexeme, and so one of the old text
        rcases hrest.mem hmem with ⟨gap, after, hgap, hd⟩ | ⟨l, hl, hd⟩
        · exact hnogap gap after hgap hd
        · obtain ⟨q, hq, rfl⟩ := List.mem_map.mp hl
          refine hbehind (List.mem_append_left _ ?_)
          exact List.mem_flatMap.mpr ⟨q, hq, List.mem_append_right _ hd⟩
      have hcut := hp.parted (hgaps _ _ hgap) hparted hquote
      refine ⟨{ p with gap } :: qs, last, ?_, hlast, ⟨hcut, hqs⟩, ?_⟩
      · rw [join_cons]
        simp
      · rw [List.map_cons, hcontent]
        rfl

end Scan

namespace Script

open Scan (Laid Blanks Gap)
open Parse (kinds)

/-- A token without its place: what it is, and how it is written. -/
def contents (s : Script) : List (Kind × String) := s.scan.map fun t => (t.kind, t.lexeme)

def lexemes (s : Script) : List (List Char) := s.scan.map fun t => t.lexeme.toList

/-- Two scripts have the same tokens at whatever places, and what is read from one of them is read
from the other, spans left out. -/
structure SameReading (s t : Script) : Prop where
  contents : t.contents = s.contents
  programs : ∀ limits p, (∃ q, t.parse limits = .ok q ∧ q.erase = p) ↔
    ∃ q, s.parse limits = .ok q ∧ q.erase = p

theorem contents_place (s : Script) (l : Location) (ps : List Scan.Piece) :
    (s.place l ps).map (fun t => (t.kind, t.lexeme)) =
      (ps.map Scan.Piece.content).map fun c => (c.1, String.ofList c.2) := by
  induction ps generalizing l with
  | nil => rfl
  | cons p ps ih =>
    rw [place, List.map_cons, ih]
    rfl

theorem lexemes_eq (s : Script) :
    s.lexemes = (Scan.pieces s.integers s.text.toList).1.map (·.lexeme) := by
  have hcontents := s.contents_place {} (Scan.pieces s.integers s.text.toList).1
  have hlexemes := congrArg (List.map fun c : Kind × String => c.2.toList) hcontents
  simpa [lexemes, scan, Function.comp_def, Scan.Piece.content] using hlexemes

/-- A script is read whenever its tokens derive a program. -/
theorem exists_parse_of_contents {s t : Script} (h : t.contents = s.contents) {limits : Limits}
    {q : Program} (hq : s.parse limits = .ok q) :
    ∃ r, t.parse limits = .ok r ∧ r.erase = q.erase := by
  have hkinds : kinds t.scan = kinds s.scan := by
    have hfirsts := congrArg (List.map Prod.fst) h
    simpa [contents, kinds, Function.comp_def] using hfirsts
  obtain ⟨hgood, hprogram⟩ := good_of_parse hq
  refine parse_of_kinds hkinds ?_
    ((Parse.program_eq_ok_iff _ _ _ _ _).mp ⟨q, hprogram, rfl⟩)
  intro k hk
  obtain ⟨u, hu, rfl⟩ := List.mem_map.mp hk
  exact hgood u hu

/-- What is read depends on the tokens only, not on their places. -/
theorem SameReading.of_contents {s t : Script} (h : t.contents = s.contents) : SameReading s t := by
  refine ⟨h, fun limits p => ⟨?_, ?_⟩⟩
  · rintro ⟨q, hq, rfl⟩
    exact exists_parse_of_contents h.symm hq
  · rintro ⟨q, hq, rfl⟩
    exact exists_parse_of_contents h hq

/-- The contents of a script in another spacing. -/
theorem contents_laid {s : Script} {IsGap : List Char → List Char → Prop}
    (hgaps : ∀ gap after, IsGap gap after → Gap gap after) {text : String}
    (hlaid : Laid IsGap s.lexemes text.toList)
    (hquotes : [Text.Quoted.doubleQuote] ∈ s.lexemes →
      ∀ gap after, IsGap gap after → Text.Quoted.doubleQuote ∉ gap) (file : Option String) :
    contents { s with text, file } = s.contents := by
  rw [lexemes_eq] at hlaid hquotes
  obtain ⟨qs, gap, htext, hgap, hcuts, hcontent⟩ :=
    Scan.cuts_of_laid hgaps (Scan.cuts_pieces s.integers s.text.toList) hlaid hquotes
  have hsplit := Scan.splitGap_of_gap hgap (by simp)
  rw [List.append_nil] at hsplit
  have hpieces := Scan.pieces_of_cuts hcuts
  rw [← htext, Scan.pieces_nil_of_splitGap hsplit, List.append_nil] at hpieces
  unfold contents scan
  rw [contents_place, contents_place, hpieces, hcontent]

theorem not_unclosed_of_good {s : Script} (hgood : ∀ t ∈ s.scan, t.kind.isBad = false) :
    [Text.Quoted.doubleQuote] ∉ s.lexemes := by
  intro hmem
  obtain ⟨t, ht, hlexeme⟩ := List.mem_map.mp hmem
  have hlone := forall_mem_scan
    (P := fun k lexeme => lexeme = [Text.Quoted.doubleQuote] → k.isBad = true) ?_ ht hlexeme
  · rw [hgood t ht] at hlone
    cases hlone
  · intro c rest h
    obtain ⟨rfl, hnone⟩ := Scan.quote_of_munch h
    have hmunch : Scan.munch s.integers Text.Quoted.doubleQuote rest = Scan.munchText rest := rfl
    rw [hmunch, Scan.munchText_unclosed hnone]
    rfl

/-- **Spacing does not matter.**  Let a text be made of the lexemes of a script, pieces that are no
token included, in order and with blanks between any two of them.  Its tokens are those of the
script, and a program is read from it exactly if it is read from the script.  If all pieces of the
script are tokens, there may be comments between the blanks. -/
theorem reading_laid (s : Script) {text : String} (file : Option String)
    (h : Laid Blanks s.lexemes text.toList ∨
      Laid Gap s.lexemes text.toList ∧ ∀ t ∈ s.scan, t.kind.isBad = false) :
    SameReading s { s with text, file } := by
  apply SameReading.of_contents
  rcases h with hlaid | ⟨hlaid, hgood⟩
  · exact contents_laid (fun _ _ => Scan.Blanks.gap) hlaid (fun _ _ _ => Scan.Blanks.no_quote) file
  · exact contents_laid (fun _ _ => id) hlaid (fun hmem => absurd hmem (not_unclosed_of_good hgood))
      file

/-- Digits that are no number without integers, a text over two lines, a comment, and a quote that
is never closed. -/
def looseSample : Script := { text := "x==1.\"a\n# b\"# note\n\"", integers := false }

/-- Its lexemes with other blanks between them. -/
def looseSpaced : String := "x == 1 .\r\n\"a\n# b\"\t\""

theorem reading_laid_looseSample :
    looseSample.lexemes = [['x'], ['=', '='], ['1'], ['.'],
      ['"', 'a', '\n', '#', ' ', 'b', '"'], ['"']] ∧
    Laid Blanks looseSample.lexemes looseSpaced.toList ∧
    SameReading looseSample { looseSample with text := looseSpaced } := by
  have hlexemes : looseSample.lexemes = [['x'], ['=', '='], ['1'], ['.'],
      ['"', 'a', '\n', '#', ' ', 'b', '"'], ['"']] := by decide +kernel
  have hlaid : Laid Blanks looseSample.lexemes looseSpaced.toList := by
    have hjoined := @Scan.laid_joined ['x'] [] [([' '], ['=', '=']), ([' '], ['1']),
      ([' '], ['.']), (['\r', '\n'], ['"', 'a', '\n', '#', ' ', 'b', '"']), (['\t'], ['"'])]
      (List.forall_mem_nil _) (by simp [Blanks])
    rw [hlexemes]
    exact hjoined
  exact ⟨hlexemes, hlaid, reading_laid looseSample none (.inl hlaid)⟩

end Script

end DialogueScript
