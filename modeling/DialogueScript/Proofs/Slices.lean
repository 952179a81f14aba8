import DialogueScript.Proofs.Cuts
import DialogueScript.Proofs.Extents
import DialogueScript.Proofs.Lexemes
import DialogueScript.Proofs.Parsing

/-!
# The text of a node

The slice of a node is the text between the two ends of its span.  It starts with the first token
of the node, ends with the last, and has the gaps between them, so that it is cut into the same
tokens when it stands alone, and also between other tokens.

* `Script.slice` — the text of a span;
* `Script.WellSpanned` — what the spans of a program that was read from a script are good for: they
  are nested like the nodes, lie in order, and each slice is read again as its node;
* `Script.slice_place`, `Script.exists_cuts` — the slice of a stretch of tokens, and its pieces;
* `Script.parse_slice`, `Script.parse_speak_slice` — reading it again;
* `Script.parse_wellSpanned` — **every program that is read is well spanned**.
-/

namespace DialogueScript

/-- The spans of the statements lie in order, and none of them reaches into the next. -/
def Stmt.InOrder (ss : List Stmt) : Prop :=
  ss.Pairwise fun s t => ∀ a ∈ s.span, ∀ b ∈ t.span, a.Before b

namespace Script

open Grammar Parse

variable {s : Script} {limits : Limits} {pre us post : List Token} {span : Span}

/-- The text of a span. -/
def slice (s : Script) (span : Span) : String :=
  String.ofList (s.text.toList.extract span.start.offset span.stop.offset)

/-- What the spans of a program say about the script it was read from.  A slice is read under any
name, with the script's own choice about integers. -/
structure WellSpanned (s : Script) (limits : Limits) (p : Program) : Prop where
  spans : ∀ n : Node, n.Of p → ∃ span, n.span = some span ∧
    span.start.offset < span.stop.offset ∧ span.stop.offset ≤ s.text.toList.length
  nested : ∀ m n : Node, m.Of p → n ∈ m.children →
    ∀ outer ∈ m.span, ∀ inner ∈ n.span, inner.Inside outer
  program : Stmt.InOrder p
  blocks : ∀ body span, (Node.stmt (.block body span)).Of p → Stmt.InOrder body
  statements : ∀ stmt, (Node.stmt stmt).Of p → ∀ span ∈ stmt.span, ∀ file,
    ∃ q, parse { s with text := s.slice span, file } limits = .ok q ∧ q.erase = [stmt.erase]
  expressions : ∀ e, (Node.expr e).Of p → ∀ span ∈ e.span, ∀ file,
    ∃ q, parse { s with text := "speak " ++ s.slice span ++ ";", file } limits = .ok q ∧
      q.erase = [.speak e.erase none]

/-! ## Places of pieces -/

theorem place_append (s : Script) (l : Location) (ps qs : List Scan.Piece) :
    s.place l (ps ++ qs) = s.place l ps ++ s.place (l.after (Scan.join ps)) qs := by
  induction ps generalizing l with
  | nil => rfl
  | cons p ps ih =>
    rw [List.cons_append, place, place, ih, List.cons_append, Scan.join_cons,
      Location.after_append, Location.after_append]

theorem length_place (s : Script) (l : Location) (ps : List Scan.Piece) :
    (s.place l ps).length = ps.length := by
  induction ps generalizing l with
  | nil => rfl
  | cons p ps ih => rw [place, List.length_cons, List.length_cons, ih]

/-- Stretches of placed pieces are placed stretches of the pieces. -/
theorem exists_place_append {l : Location} {ps : List Scan.Piece} {ts us : List Token}
    (h : s.place l ps = ts ++ us) :
    ∃ qs rs, ps = qs ++ rs ∧ ts = s.place l qs ∧ us = s.place (l.after (Scan.join qs)) rs := by
  have hsplit := place_append s l (ps.take ts.length) (ps.drop ts.length)
  rw [List.take_append_drop, h] at hsplit
  have hlength : ts.length = (s.place l (ps.take ts.length)).length := by
    have hle := congrArg List.length h
    rw [length_place, List.length_append] at hle
    rw [length_place, List.length_take]
    omega
  obtain ⟨hts, hus⟩ := List.append_inj hsplit hlength
  exact ⟨_, _, (List.take_append_drop ts.length ps).symm, hts, hus⟩

/-- Placed pieces end where their characters do. -/
theorem stop_getLast?_place {l : Location} {ps : List Scan.Piece} {t : Token}
    (ht : t ∈ (s.place l ps).getLast?) : t.span.stop = l.after (Scan.join ps) := by
  induction ps generalizing l with
  | nil => cases ht
  | cons p ps ih =>
    rw [Scan.join_cons, Location.after_append, Location.after_append]
    cases ps with
    | nil =>
      cases ht
      rfl
    | cons q qs =>
      rw [place, place, List.getLast?_cons_cons] at ht
      exact ih ht

/-- The slice of some of the text's pieces goes from the first lexeme to the last. -/
theorem slice_place {pre post : List Char} {p : Scan.Piece} {ps : List Scan.Piece}
    (htext : s.text.toList = pre ++ (Scan.join (p :: ps) ++ post))
    (hspan : Spans (s.place (({} : Location).after pre) (p :: ps)) span) :
    (s.slice span).toList = Scan.join ({ p with gap := [] } :: ps) := by
  obtain ⟨first, hfirst, last, hlast, rfl⟩ := hspan
  have hstop := stop_getLast?_place hlast
  obtain rfl : _ = first := Option.some.inj hfirst
  have hoffset (cs : List Char) : (({} : Location).after cs).offset = cs.length := by
    rw [Location.offset_after]
    exact Nat.zero_add _
  have hsplit : s.text.toList =
      (pre ++ p.gap) ++ (Scan.join ({ p with gap := [] } :: ps) ++ post) := by
    rw [htext]
    simp [Scan.join_cons]
  have hlength : (pre ++ Scan.join (p :: ps)).length =
      (pre ++ p.gap).length + (Scan.join ({ p with gap := [] } :: ps)).length := by
    simp [Scan.join_cons, Nat.add_assoc]
  unfold slice
  rw [String.toList_ofList, hstop]
  dsimp only
  rw [← Location.after_append, ← Location.after_append, hoffset, hoffset, hlength, hsplit,
    extract_between]

/-- The tokens of a script lie in order. -/
theorem Tiles.ordered {i : Nat} {ts : List Token} (h : s.Tiles i ts) :
    Ordered ts ∧ ∀ t ∈ ts, i ≤ t.span.start.offset := by
  induction h with
  | last _ => exact ⟨⟨by simp, .nil⟩, by simp⟩
  | @token i t ts hle _ hne hlexeme _ _ _ ih =>
    obtain ⟨hts, hafter⟩ := ih
    have hproper : t.span.start.offset < t.span.stop.offset := by
      by_contra hnot
      have hempty : t.lexeme.toList = [] := by
        rw [hlexeme, List.extract_eq_take_drop, Nat.sub_eq_zero_of_le (Nat.le_of_not_lt hnot)]
        rfl
      exact hne (String.toList_eq_nil_iff.mp hempty)
    refine ⟨⟨List.forall_mem_cons.mpr ⟨hproper, hts.proper⟩,
      List.pairwise_cons.mpr ⟨hafter, hts.pairwise⟩⟩, List.forall_mem_cons.mpr ⟨hle, ?_⟩⟩
    intro u hu
    have hu := hafter u hu
    omega

/-! ## Reading a slice again -/

/-- Some of a script's tokens, none of them bad, are pieces of its text.  Their slice is these
pieces without the gap in front, and they are cut off the same behind any blanks and in front of
whatever goes on with no token. -/
theorem exists_cuts (hscan : s.scan = pre ++ (us ++ post)) (hspan : Spans us span)
    (hgood : ∀ k ∈ kinds us, k.isBad = false) :
    ∃ p ps, kinds us = (p :: ps).map (·.kind) ∧
      (s.slice span).toList = Scan.join ({ p with gap := [] } :: ps) ∧
      ∀ gap rest, (∀ c ∈ gap, Scan.isSpace c = true) → (∀ k : Kind, k.EndsBefore rest) →
        Scan.Cuts s.integers ({ p with gap } :: ps) rest := by
  have htext := Scan.pieces_join s.integers s.text.toList
  have hcuts := Scan.cuts_pieces s.integers s.text.toList
  obtain ⟨before, more, hpieces, -, hmore⟩ := exists_place_append hscan
  obtain ⟨qs, after, rfl, hus, -⟩ := exists_place_append hmore.symm
  rw [hpieces, Scan.join_append, Scan.join_append, List.append_assoc, List.append_assoc] at htext
  rw [hpieces, Scan.cuts_append, Scan.cuts_append] at hcuts
  rw [hus] at hspan
  cases qs with
  | nil =>
    obtain ⟨first, hfirst, -⟩ := hspan
    cases hfirst
  | cons p ps =>
    have hkinds : kinds us = (p :: ps).map (·.kind) := by rw [hus, kinds_place]
    have hgood' : ∀ q ∈ p :: ps, q.kind.isBad = false := fun q hq =>
      hgood q.kind (hkinds ▸ List.mem_map_of_mem hq)
    refine ⟨p, ps, hkinds, slice_place htext.symm hspan, fun gap rest hgap hrest => ?_⟩
    have hswap := hcuts.2.1.swap hgood' fun q _ => hrest q.kind
    exact ⟨hswap.1.regap hgap, hswap.2⟩

/-- The tokens of a text that is all pieces. -/
theorem kinds_scan_of_cuts {ps : List Scan.Piece} (hcuts : Scan.Cuts s.integers ps [])
    (htext : s.text.toList = Scan.join ps) : kinds s.scan = ps.map (·.kind) := by
  have hnil : (Scan.pieces s.integers []).1 = [] := by
    rw [Scan.pieces]
    rfl
  have hpieces := Scan.pieces_of_cuts hcuts
  rw [List.append_nil, hnil, List.append_nil] at hpieces
  rw [scan, kinds_place, htext, hpieces]

/-- What is read has no bad tokens. -/
theorem good_of_parse {p : Program} (h : s.parse limits = .ok p) :
    (∀ t ∈ s.scan, t.kind.isBad = false) ∧
      Parse.program limits.nesting (some s.text) s.scan s.finish = .ok p := by
  unfold parse at h
  dsimp only at h
  split at h
  · cases h
  · rename_i hfind
    exact ⟨fun t ht => Bool.eq_false_iff.mpr (List.find?_eq_none.mp hfind t ht), h⟩

/-- A text whose tokens derive a program is read as this program. -/
theorem parse_of_kinds {ks : List Kind} {p : List Stmt} (hkinds : kinds s.scan = ks)
    (hgood : ∀ k ∈ ks, k.isBad = false) (hderives : Grammar.Program limits.nesting ks p) :
    ∃ q, s.parse limits = .ok q ∧ q.erase = p := by
  rw [← hkinds] at hgood hderives
  obtain ⟨q, hq, herase⟩ :=
    (program_eq_ok_iff limits.nesting (some s.text) s.scan s.finish p).mpr hderives
  exact ⟨q, (parse_of_good hgood).trans hq, herase⟩

/-- **The slice of a statement is read as this statement.** -/
theorem parse_slice (hscan : s.scan = pre ++ (us ++ post)) (hspan : Spans us span)
    (hgood : ∀ k ∈ kinds us, k.isBad = false) {stmt : Stmt}
    (hderives : Statement limits.nesting (kinds us) stmt) (file : Option String) :
    ∃ q, parse { s with text := s.slice span, file } limits = .ok q ∧ q.erase = [stmt] := by
  obtain ⟨p, ps, hkinds, hslice, hcuts⟩ := exists_cuts hscan hspan hgood
  let script : Script := { s with text := s.slice span, file }
  have hpieces : Scan.Cuts script.integers ({ p with gap := [] } :: ps) [] :=
    hcuts [] [] (List.forall_mem_nil _) Kind.endsBefore_nil
  have hscan' : kinds script.scan = kinds us :=
    (kinds_scan_of_cuts hpieces hslice).trans hkinds.symm
  exact parse_of_kinds hscan' hgood (Many.one hderives)

theorem endsBefore_semicolon (k : Kind) : k.EndsBefore [';'] := by
  intro c hc
  obtain rfl : ';' = c := Option.some.inj hc
  cases k with
  | sign s => cases s <;> rfl
  | _ => rfl

/-- **The slice of an expression is read, as what is spoken, as this expression.** -/
theorem parse_speak_slice (hscan : s.scan = pre ++ (us ++ post)) (hspan : Spans us span)
    (hgood : ∀ k ∈ kinds us, k.isBad = false) {levels : Nat} {e : Expr}
    (hderives : Expression levels (kinds us) e) (hlevels : levels + 1 ≤ limits.nesting)
    (file : Option String) :
    ∃ q, parse { s with text := "speak " ++ s.slice span ++ ";", file } limits = .ok q ∧
      q.erase = [.speak e none] := by
  obtain ⟨p, ps, hkinds, hslice, hcuts⟩ := exists_cuts hscan hspan hgood
  let script : Script := { s with text := "speak " ++ s.slice span ++ ";", file }
  let speak : Scan.Piece := ⟨[], .keyword .speak, ['s', 'p', 'e', 'a', 'k']⟩
  let semicolon : Scan.Piece := ⟨[], .sign .semicolon, [';']⟩
  let inner : List Scan.Piece := { p with gap := [' '] } :: ps
  have htext : script.text.toList = Scan.join (speak :: (inner ++ [semicolon])) := by
    show ("speak " ++ s.slice span ++ ";").toList = _
    rw [String.toList_append, String.toList_append, hslice]
    simp [speak, inner, semicolon, Scan.join]
  have hinner : Scan.Cuts s.integers inner [';'] :=
    hcuts [' '] [';'] (by simp [Scan.isSpace]) endsBefore_semicolon
  have hsemicolon : semicolon.CutOff s.integers [] := ⟨rfl, ';', [], rfl, rfl⟩
  have hspeak : speak.CutOff s.integers (Scan.join (inner ++ [semicolon]) ++ []) :=
    ⟨rfl, 's', ['p', 'e', 'a', 'k'], rfl, rfl⟩
  have hpieces : Scan.Cuts script.integers (speak :: (inner ++ [semicolon])) [] :=
    ⟨hspeak, Scan.cuts_append.mpr ⟨hinner, hsemicolon, trivial⟩⟩
  have hscan' : kinds script.scan = .keyword .speak :: kinds us ++ [.sign .semicolon] := by
    rw [kinds_scan_of_cuts hpieces htext, hkinds]
    simp [speak, semicolon, inner]
  have hgood' : ∀ k ∈ .keyword .speak :: kinds us ++ [.sign .semicolon], k.isBad = false := by
    simp only [List.forall_mem_append, List.forall_mem_cons]
    exact ⟨⟨rfl, hgood⟩, rfl, List.forall_mem_nil _⟩
  have hform : Statement (levels + 1) (.keyword .speak :: kinds us ++ [.sign .semicolon])
      (.speak e none) := Form.speak hderives
  exact parse_of_kinds hscan' hgood' (Many.one (hform.mono hlevels))

/-! ## Nodes of a script -/

/-- The statements of a program stand in a row in the script's tokens. -/
theorem row_of_parse {p : Program} (h : s.parse limits = .ok p) :
    Row (Covers (limits.nesting - 1)) s.scan (p.map .stmt) := by
  obtain ⟨-, hprogram⟩ := good_of_parse h
  let ctx : Context := ⟨s.finish, some s.text, s.scan.length + 1⟩
  have hbound : s.scan.length < ctx.bound := Nat.lt_succ_self _
  have hlays := @statement_lays ctx (limits.nesting - 1) limits.nesting (by omega)
  exact statements_row hlays _ _ _ hbound hbound hprogram

theorem ordered_scan (s : Script) : Ordered s.scan := s.scan_tiles.1.ordered.1

/-- Every node of a program has some of the script's tokens, in order and none of them bad. -/
theorem exists_tokens {p : Program} (h : s.parse limits = .ok p) {n : Node} (hn : n.Of p) :
    ∃ pre us post, s.scan = pre ++ (us ++ post) ∧ Ordered us ∧
      (∀ k ∈ kinds us, k.isBad = false) ∧ Covers (limits.nesting - 1) us n := by
  obtain ⟨pre, us, post, hscan, hcovers⟩ := exists_covers (row_of_parse h) hn
  refine ⟨pre, us, post, hscan, (hscan ▸ s.ordered_scan).stretch, fun k hk => ?_, hcovers⟩
  obtain ⟨t, ht, rfl⟩ := List.mem_map.mp hk
  exact (good_of_parse h).1 t (by simp [hscan, ht])

/-- Whatever is read took a level. -/
theorem nesting_pos_of_parse {p : Program} (h : s.parse limits = .ok p) {n : Node} (hn : n.Of p) :
    0 < limits.nesting := by
  refine Nat.pos_of_ne_zero fun hzero => ?_
  have hderives := (program_eq_ok_iff limits.nesting _ _ _ p.erase).mp ⟨p, (good_of_parse h).2, rfl⟩
  rw [hzero] at hderives
  have herase := hderives.eq_nil
  cases p with
  | cons stmt rest => simp [Program.erase, Stmt.eraseAll] at herase
  | nil =>
    induction hn with
    | top hs => cases hs
    | child _ _ ih => exact ih

/-- **Every program that is read is well spanned.** -/
theorem parse_wellSpanned {p : Program} (h : s.parse limits = .ok p) : s.WellSpanned limits p := by
  constructor
  case spans =>
    intro n hn
    obtain ⟨pre, us, post, hscan, hus, -, hcovers⟩ := exists_tokens h hn
    obtain ⟨span, hspan, hspans⟩ := hcovers.exists_span
    refine ⟨span, hspan, hus.proper_span hspans, ?_⟩
    obtain ⟨-, -, last, hlast, rfl⟩ := hspans
    have hmem : last ∈ s.scan := by simp [hscan, List.mem_of_getLast? hlast]
    exact (isPlace_of_mem_scan hmem).2.1
  case nested =>
    intro m n hm hn outer houter inner hinner
    obtain ⟨pre, us, post, -, hus, -, hcovers⟩ := exists_tokens h hm
    exact hcovers.inside hus hn houter hinner
  case program => exact List.pairwise_map.mp ((row_of_parse h).pairwise_before s.ordered_scan)
  case blocks =>
    intro body span hblock
    obtain ⟨pre, us, post, -, hus, -, hcovers⟩ := exists_tokens h hblock
    cases hcovers with
    | node _ _ _ hbody => exact List.pairwise_map.mp (hbody.pairwise_before hus)
  case statements =>
    intro stmt hstmt span hspan file
    obtain ⟨pre, us, post, hscan, -, hkinds, hcovers⟩ := exists_tokens h hstmt
    cases hcovers with
    | node hspan' hspans hderived _ =>
      cases hspan.symm.trans hspan'
      have hlevels := Nat.sub_add_cancel (nesting_pos_of_parse h hstmt)
      exact parse_slice hscan hspans hkinds (hderived.mono (Nat.le_of_eq hlevels)) file
  case expressions =>
    intro e he span hspan file
    obtain ⟨pre, us, post, hscan, -, hkinds, hcovers⟩ := exists_tokens h he
    cases hcovers with
    | node hspan' hspans hderived _ =>
      cases hspan.symm.trans hspan'
      have hlevels := Nat.sub_add_cancel (nesting_pos_of_parse h he)
      exact parse_speak_slice hscan hspans hkinds hderived (Nat.le_of_eq hlevels) file

/-- Parentheses and semicolons behind blocks in three places, and a comment between statements. -/
def nestSample : Script :=
  { text := "\x7b loop \x7b speak (a + (\"1\")) * b; \x7d; \x7d; # twice\nx = (y);" }

theorem parse_wellSpanned_nestSample :
    ∃ p, nestSample.parse .small = .ok p ∧ nestSample.WellSpanned .small p ∧
      p.map (fun stmt => stmt.span.map nestSample.slice) =
        [some "\x7b loop \x7b speak (a + (\"1\")) * b; \x7d; \x7d", some "x = (y);"] := by
  have hslices : (nestSample.parse .small).map
      (fun p => p.map fun stmt => stmt.span.map nestSample.slice) =
      .ok [some "\x7b loop \x7b speak (a + (\"1\")) * b; \x7d; \x7d", some "x = (y);"] := by
    decide +kernel
  cases hp : nestSample.parse .small with
  | error f =>
    rw [hp] at hslices
    cases hslices
  | ok p =>
    rw [hp] at hslices
    exact ⟨p, rfl, parse_wellSpanned hp, Except.ok.inj hslices⟩

end Script

end DialogueScript
