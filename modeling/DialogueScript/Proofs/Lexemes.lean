import DialogueScript.Proofs.Cuts
import DialogueScript.Proofs.ParseSound

/-!
# Tokens written down

A token is written as its keyword, sign, name, number or quoted text.  Written with blanks between
them, tokens are scanned as the tokens they are.

* `Kind.written` — how a token is written; `Kind.Writable` — the tokens that can be written;
* `Scan.munch_append_apart` — a token that takes a whole text takes the same in front of a blank;
* `Scan.IsToken` — a text is one token: a word, a sign, a numeral or a quoted text
  (`isToken_word`, `isToken_sign`, `isToken_numeral`, `isToken_text`), and so whatever is written
  (`isToken_written`);
* `Script.kinds_scan_spaced` — the tokens of a text that is made of written tokens and blanks.
-/

namespace DialogueScript

/-! ## Writing -/

/-- How a sign is written. -/
def Sign.written : Sign → String
  | .openParen => "("
  | .closeParen => ")"
  | .assign => "="
  | .semicolon => ";"
  | .openBrace => "\x7b"
  | .closeBrace => "\x7d"
  | .plus => "+"
  | .minus => "-"
  | .star => "*"
  | .slash => "/"
  | .equals => "=="

/-- How a token is written. -/
def Kind.written : Kind → String
  | .keyword k => k.word
  | .sign s => s.written
  | .name n => n
  | .number x => Number.display x
  | .text s => "\"" ++ s ++ "\""
  | .bad s => s
  | .finish => ""

/-- A word that is no keyword, whatever its capitals. -/
structure IsName (n : String) : Prop where
  start : ∃ c ∈ n.toList.head?, Text.isWordStart c = true
  word : ∀ c ∈ n.toList, Text.isWordChar c = true
  plain : ∀ k : Keyword, Text.fold n.toList ≠ k.word.toList

/-- A number that has a numeral: it is finite, and its sign bit is clear. -/
structure Number.IsPlain (x : Float) : Prop where
  finite : Number.magnitude x < Number.infinite
  unsigned : Number.isNegative x = false

/-- The tokens that can be written. -/
def Kind.Writable : Kind → Prop
  | .keyword _ | .sign _ => True
  | .name n => IsName n
  | .number x => Number.IsPlain x
  | .text s => Text.Quoted.doubleQuote ∉ s.toList
  | .bad _ | .finish => False

theorem Kind.Writable.isBad {k : Kind} (h : k.Writable) : k.isBad = false := by
  cases k with
  | bad s => exact h.elim
  | _ => rfl

/-- Tokens with a blank between them. -/
def Kind.spaced (ks : List Kind) : String := " ".intercalate (ks.map Kind.written)

namespace Scan

/-! ## A token with a blank behind it -/

/-- Nothing follows, or a blank. -/
def Apart (rest : List Char) : Prop := ∀ c ∈ rest.head?, isSpace c = true

/-- A class without the five blanks is a class without blanks. -/
theorem not_of_isSpace {p : Char → Bool}
    (hp : [' ', '\t', '\n', '\x0c', '\r'].any p = false) {c : Char} (h : isSpace c = true) :
    p c = false := by
  rw [List.any_eq_false] at hp
  exact Bool.eq_false_iff.mpr (hp c (isSpace_iff.mp h))

theorem isWordChar_of_isSpace {c : Char} (h : isSpace c = true) : Text.isWordChar c = false :=
  not_of_isSpace rfl h

theorem isDigit_of_isSpace {c : Char} (h : isSpace c = true) : c.isDigit = false :=
  not_of_isSpace rfl h

/-- A blank goes on with no token. -/
theorem Apart.endsBefore {rest : List Char} (h : Apart rest) (k : Kind) : k.EndsBefore rest := by
  intro c hc
  have hspace := h c hc
  cases k with
  | keyword w => exact isWordChar_of_isSpace hspace
  | name n => exact isWordChar_of_isSpace hspace
  | number x => exact not_of_isSpace (p := fun c => c.isDigit || c == '.') rfl hspace
  | sign s =>
    cases s with
    | assign => exact not_of_isSpace (p := fun c => c == '=') rfl hspace
    | _ => rfl
  | _ => rfl

/-- A token that takes a whole text takes the same if a blank follows. -/
theorem munch_append_apart {integers : Bool} {c : Char} {cs rest : List Char}
    (hall : (munch integers c cs).rest = []) (hgood : (munch integers c cs).kind.isBad = false)
    (hrest : Apart rest) :
    munch integers c (cs ++ rest) = { munch integers c cs with rest } := by
  obtain ⟨ds, hds, hswap⟩ := munch_swap hgood (hrest.endsBefore _)
  have hlexeme := munch_lexeme_append_rest integers c cs
  rw [hall, List.append_nil, hds] at hlexeme
  obtain rfl : ds = cs := (List.cons_eq_cons.mp hlexeme).2
  exact hswap

/-! ## What is written is one token -/

/-- The whole of a text is one token of a kind, without a gap in front of it. -/
def IsToken (text : List Char) (kind : Kind) : Prop :=
  ∃ c cs, text = c :: cs ∧ Solid c ∧ munch true c cs = ⟨kind, text, []⟩

/-- A character of a class without the quote, the number sign and the blanks begins neither a text
nor a gap. -/
theorem solid_of_class {p : Char → Bool} {c : Char} (hc : p c = true)
    (hquote : p Text.Quoted.doubleQuote = false) (hsharp : p '#' = false)
    (hspace : ∀ d, isSpace d = true → p d = false) :
    (c == Text.Quoted.doubleQuote) = false ∧ Solid c := by
  have hne {d : Char} (hd : p d = false) : (c == d) = false := by
    rw [beq_eq_false_iff_ne]
    rintro rfl
    rw [hc] at hd
    cases hd
  have hblank : isSpace c = false := by
    by_contra h
    have hnot := hspace c (Bool.eq_true_of_not_eq_false h)
    rw [hc] at hnot
    cases hnot
  exact ⟨hne hquote, hblank, hne hsharp⟩

theorem isToken_word {c : Char} {cs : List Char} (hc : Text.isWordStart c = true)
    (hcs : ∀ d ∈ c :: cs, Text.isWordChar d = true) :
    IsToken (c :: cs) (munchWord (c :: cs)).kind := by
  obtain ⟨hquote, hsolid⟩ := solid_of_class (hcs c List.mem_cons_self) rfl rfl
    fun _ => isWordChar_of_isSpace
  have hdigit : c.isDigit = false := by
    by_contra h
    rw [Text.isWordStart_of_isDigit (Bool.eq_true_of_not_eq_false h)] at hc
    cases hc
  refine ⟨c, cs, rfl, hsolid, ?_⟩
  unfold munch
  rw [hquote, hdigit, hc]
  show munchWord (c :: cs) = _
  unfold munchWord
  rw [List.takeWhile_eq_self_iff.mpr hcs, List.dropWhile_eq_nil_iff.mpr hcs]

theorem isToken_sign (s : Sign) : IsToken s.written.toList (.sign s) := by
  cases s <;> exact ⟨_, _, rfl, ⟨rfl, rfl⟩, rfl⟩

theorem isToken_keyword (k : Keyword) : IsToken k.word.toList (.keyword k) := by
  cases k <;> exact ⟨_, _, rfl, ⟨rfl, rfl⟩, rfl⟩

theorem isToken_name {n : String} (hn : IsName n) : IsToken n.toList (.name n) := by
  obtain ⟨c, hc, hstart⟩ := hn.start
  obtain ⟨cs, hcs⟩ : ∃ cs, n.toList = c :: cs := List.head?_eq_some_iff.mp hc
  have hword : ∀ d ∈ c :: cs, Text.isWordChar d = true := by
    rw [← hcs]
    exact hn.word
  have hplain : Keyword.ofWord? (c :: cs) = none := by
    rw [← hcs]
    by_contra h
    obtain ⟨k, hk⟩ := Option.ne_none_iff_exists'.mp h
    exact hn.plain k (Keyword.ofWord?_eq_some_iff.mp hk)
  have hkind : (munchWord (c :: cs)).kind = .name n := by
    unfold munchWord
    dsimp only
    rw [List.takeWhile_eq_self_iff.mpr hword, hplain, ← hcs, String.ofList_toList]
  rw [hcs, ← hkind]
  exact isToken_word hstart hword

theorem isToken_text {s : String} (hs : Text.Quoted.doubleQuote ∉ s.toList) :
    IsToken ("\"" ++ s ++ "\"").toList (.text s) := by
  have hwritten : ("\"" ++ s ++ "\"").toList =
      Text.Quoted.doubleQuote :: (s.toList ++ [Text.Quoted.doubleQuote]) := by
    simp [Text.Quoted.doubleQuote]
  have hbody : ∀ c ∈ s.toList, (c != Text.Quoted.doubleQuote) = true := by
    intro c hc
    rw [bne_iff_ne]
    rintro rfl
    exact hs hc
  have hquote : ∀ c ∈ [Text.Quoted.doubleQuote].head?, (c != Text.Quoted.doubleQuote) = false := by
    simp
  obtain ⟨htake, hdrop⟩ := Number.takeWhile_dropWhile_append hbody hquote
  rw [hwritten]
  refine ⟨_, _, rfl, ⟨rfl, rfl⟩, ?_⟩
  show munchText _ = _
  unfold munchText
  rw [htake, hdrop]
  dsimp only
  rw [String.ofList_toList]
  rfl

theorem splitPoint_point {fraction : List Char} (h : ∀ c ∈ fraction, c.isDigit = true) :
    splitPoint (Number.point fraction) = (Number.point fraction, []) := by
  unfold Number.point
  split
  · rfl
  · rename_i hne
    show (if (fraction.takeWhile Char.isDigit).isEmpty then _ else
      ('.' :: fraction.takeWhile Char.isDigit, fraction.dropWhile Char.isDigit)) = _
    rw [List.takeWhile_eq_self_iff.mpr h, List.dropWhile_eq_nil_iff.mpr h,
      if_neg (by simpa using hne)]

theorem isToken_numeral {cs whole fraction : List Char}
    (h : Number.NumeralText cs whole fraction) : IsToken cs (.number (Number.ofNumeral cs)) := by
  obtain ⟨rfl, hne, hwhole, hfraction⟩ := h
  obtain ⟨htake, hdrop⟩ := Number.takeWhile_dropWhile_append hwhole (Number.head?_point fraction)
  obtain ⟨c, ds, rfl⟩ := List.exists_cons_of_ne_nil hne
  have hc : c.isDigit = true := hwhole c List.mem_cons_self
  obtain ⟨hquote, hsolid⟩ := solid_of_class hc rfl rfl fun _ => isDigit_of_isSpace
  refine ⟨c, ds ++ Number.point fraction, rfl, hsolid, ?_⟩
  unfold munch
  rw [hquote, hc]
  show munchNumber true (c :: ds ++ Number.point fraction) = _
  unfold munchNumber
  rw [htake, hdrop, splitPoint_point hfraction]
  dsimp only
  rw [Bool.not_true, Bool.and_false]
  rfl

theorem isToken_number {x : Float} (hx : Number.IsPlain x) :
    IsToken (Number.display x).toList (.number x) := by
  obtain ⟨whole, fraction, hnumeral, -⟩ :=
    (Number.shortest (Number.magnitude x)).positional_numeral
  have hdisplay : (Number.display x).toList =
      (Number.shortest (Number.magnitude x)).positional := by
    rw [Number.display_of_finite hx.finite, hx.unsigned]
    rfl
  have htoken := isToken_numeral hnumeral
  rwa [← hdisplay, Number.ofNumeral_display hx.finite hx.unsigned] at htoken

/-- **What is written of a token is one token again.** -/
theorem isToken_written {k : Kind} (hk : k.Writable) : IsToken k.written.toList k := by
  cases k with
  | keyword k => exact isToken_keyword k
  | sign s => exact isToken_sign s
  | name n => exact isToken_name hk
  | number x => exact isToken_number hk
  | text s => exact isToken_text hk
  | bad s => exact hk.elim
  | finish => exact hk.elim

/-! ## Tokens with blanks between them -/

theorem pieces_of_splitGap {integers : Bool} {cs gap rest : List Char} {c : Char}
    (h : splitGap false cs = (gap, c :: rest)) :
    (pieces integers cs).1 = ⟨gap, (munch integers c rest).kind, (munch integers c rest).lexeme⟩ ::
      (pieces integers (munch integers c rest).rest).1 := by
  rw [pieces]
  split
  · rename_i h'
    rw [h] at h'
    cases h'
  · rename_i h'
    rw [h] at h'
    cases h'
    rfl

/-- A token behind blanks, with a blank or nothing after it, is the first piece. -/
theorem kinds_pieces_append {gap text rest : List Char} {k : Kind}
    (hgap : ∀ c ∈ gap, isSpace c = true) (htext : IsToken text k) (hk : k.isBad = false)
    (hrest : Apart rest) :
    (pieces true (gap ++ (text ++ rest))).1.map (·.kind) =
      k :: (pieces true rest).1.map (·.kind) := by
  obtain ⟨c, cs, rfl, hc, hmunch⟩ := htext
  have hkind : (munch true c cs).kind = k := by rw [hmunch]
  have hall : (munch true c cs).rest = [] := by rw [hmunch]
  have happend := munch_append_apart hall (hkind ▸ hk) hrest
  rw [List.cons_append, pieces_of_splitGap (splitGap_blanks hgap hc), happend, List.map_cons,
    hkind]

/-- What follows the first of some tokens: a blank and the next one, or nothing. -/
def afterFirst : List Kind → List Char
  | [] => []
  | k :: ks => ' ' :: (k.written.toList ++ afterFirst ks)

theorem apart_afterFirst (ks : List Kind) : Apart (afterFirst ks) := by
  intro c hc
  cases ks with
  | nil => cases hc
  | cons k ks =>
    obtain rfl : ' ' = c := Option.some.inj hc
    rfl

theorem toList_spaced_cons (k : Kind) (ks : List Kind) :
    (Kind.spaced (k :: ks)).toList = k.written.toList ++ afterFirst ks := by
  induction ks generalizing k with
  | nil => simp [Kind.spaced, afterFirst]
  | cons k' ks ih =>
    have hnext := ih k'
    unfold Kind.spaced at hnext ⊢
    rw [String.toList_intercalate] at hnext ⊢
    rw [List.map_cons, List.map_cons, List.map_cons, List.map_cons, List.intercalate_cons_cons]
    rw [List.map_cons, List.map_cons] at hnext
    rw [hnext, List.append_assoc]
    rfl

theorem kinds_pieces_afterFirst {ks : List Kind} (hks : ∀ k ∈ ks, k.Writable) :
    (pieces true (afterFirst ks)).1.map (·.kind) = ks := by
  induction ks with
  | nil =>
    rw [afterFirst, pieces]
    rfl
  | cons k ks ih =>
    have hk : k.Writable := hks k List.mem_cons_self
    have hgap : ∀ c ∈ [' '], isSpace c = true := by simp [isSpace]
    have hpieces := kinds_pieces_append hgap (isToken_written hk) hk.isBad (apart_afterFirst ks)
    rw [ih fun k hk => hks k (List.mem_cons_of_mem _ hk)] at hpieces
    exact hpieces

/-- The pieces of tokens with a blank between them are these tokens. -/
theorem kinds_pieces_spaced {ks : List Kind} (hks : ∀ k ∈ ks, k.Writable) :
    (pieces true (Kind.spaced ks).toList).1.map (·.kind) = ks := by
  cases ks with
  | nil => exact kinds_pieces_afterFirst hks
  | cons k ks =>
    have hk : k.Writable := hks k List.mem_cons_self
    have hpieces := kinds_pieces_append (List.forall_mem_nil _) (isToken_written hk) hk.isBad
      (apart_afterFirst ks)
    rw [kinds_pieces_afterFirst fun k hk => hks k (List.mem_cons_of_mem _ hk)] at hpieces
    rw [toList_spaced_cons]
    exact hpieces

end Scan

namespace Script

theorem kinds_place (s : Script) (l : Location) (ps : List Scan.Piece) :
    Parse.kinds (s.place l ps) = ps.map (·.kind) := by
  induction ps generalizing l with
  | nil => rfl
  | cons p ps ih =>
    rw [place, Parse.kinds_cons, ih, List.map_cons]

/-- A script without bad pieces is read from its tokens. -/
theorem parse_of_good {s : Script} {limits : Limits}
    (h : ∀ k ∈ Parse.kinds s.scan, k.isBad = false) :
    s.parse limits = Parse.program limits.nesting (some s.text) s.scan s.finish := by
  have hnone : s.scan.find? (·.kind.isBad) = none := by
    rw [List.find?_eq_none]
    intro t ht
    rw [h t.kind (List.mem_map_of_mem ht)]
    exact Bool.false_ne_true
  unfold parse
  dsimp only
  rw [hnone]

/-- **Tokens that are written with blanks between them are scanned as these tokens.** -/
theorem kinds_scan_spaced {ks : List Kind} (hks : ∀ k ∈ ks, k.Writable) (file : Option String) :
    Parse.kinds (Script.scan { text := Kind.spaced ks, file }) = ks :=
  (kinds_place _ _ _).trans (Scan.kinds_pieces_spaced hks)

end Script

end DialogueScript
