import DialogueScript.Token
import DialogueScript.Number.Numeral
import DialogueScript.Text.Letters
import DialogueScript.Text.Lines

/-!
# From text to tokens

Model of `_Scanner.next_token` and of `Lexer.scan`, which calls it up to the end of a text.

A text is a row of tokens with gaps between them.  A gap is made of blanks and comments; a comment
runs from a number sign to the end of its line.  `Munch` is the first token of a text that starts
with no gap, and `Script.scan` cuts a whole text, pieces that are no token included.

* `gap_append_rest` — a gap and what follows it are the text;
* `munch_lexeme_append_rest` — so are a token and what follows it;
* `munch_lexeme_ne_nil` — a token has at least one character, so cutting comes to an end;
* `pieces_join` — all gaps and tokens together are the text.
-/

namespace DialogueScript

/-- A text to be run, the name of the text, and whether it may write integers without a point. -/
structure Script where
  text : String
  file : Option String := none
  integers : Bool := true
  deriving DecidableEq, Repr

namespace Scan

/-- The blanks between tokens. -/
def isSpace (c : Char) : Bool := c == ' ' || c == '\t' || c == '\n' || c == '\x0c' || c == '\r'

/-- The gap at the start of a text, and what follows it.  A comment ends before its line feed.
Model of `_skip_whitespace_and_comments`. -/
def splitGap : Bool → List Char → List Char × List Char
  | _, [] => ([], [])
  | comment, c :: rest =>
    if comment then
      let (gap, after) := splitGap (c != '\n') rest
      (c :: gap, after)
    else if isSpace c then
      let (gap, after) := splitGap false rest
      (c :: gap, after)
    else if c == '#' then
      let (gap, after) := splitGap true rest
      (c :: gap, after)
    else ([], c :: rest)

/-- A token cut off a text, and what follows it. -/
structure Munch where
  kind : Kind
  lexeme : List Char
  rest : List Char

/-- A text between double quotes, which may go over several lines; a quote that is never closed is
no token.  Model of `_scan_string`. -/
def munchText (after : List Char) : Munch :=
  let body := after.takeWhile (· != Text.Quoted.doubleQuote)
  match after.dropWhile (· != Text.Quoted.doubleQuote) with
  | [] => ⟨.bad (String.singleton Text.Quoted.doubleQuote), [Text.Quoted.doubleQuote], after⟩
  | q :: rest => ⟨.text (String.ofList body), Text.Quoted.doubleQuote :: body ++ [q], rest⟩

/-- The point and the digits after the whole digits of a number, if there are both, and what
follows them. -/
def splitPoint : List Char → List Char × List Char
  | '.' :: rest =>
    if (rest.takeWhile Char.isDigit).isEmpty then ([], '.' :: rest)
    else ('.' :: rest.takeWhile Char.isDigit, rest.dropWhile Char.isDigit)
  | cs => ([], cs)

/-- Digits with or without a fraction; without one they are a number only if integers are.  Model of
`_scan_number`. -/
def munchNumber (integers : Bool) (cs : List Char) : Munch :=
  let whole := cs.takeWhile Char.isDigit
  let (fraction, rest) := splitPoint (cs.dropWhile Char.isDigit)
  let lexeme := whole ++ fraction
  let kind := if fraction.isEmpty && !integers then Kind.bad (String.ofList lexeme)
    else Kind.number (Number.ofNumeral lexeme)
  ⟨kind, lexeme, rest⟩

/-- A keyword or a name.  Model of `_scan_identifier_or_keyword`. -/
def munchWord (cs : List Char) : Munch :=
  let word := cs.takeWhile Text.isWordChar
  let kind := match Keyword.ofWord? word with
    | some k => Kind.keyword k
    | none => Kind.name (String.ofList word)
  ⟨kind, word, cs.dropWhile Text.isWordChar⟩

/-- A sign, of which only the sign for equality has two characters, or a character that starts no
token. -/
def munchSign (c : Char) (rest : List Char) : Munch :=
  if c == '=' then
    match rest with
    | '=' :: more => ⟨.sign .equals, ['=', '='], more⟩
    | _ => ⟨.sign .assign, ['='], rest⟩
  else match Sign.ofChar? c with
    | some s => ⟨.sign s, [c], rest⟩
    | none => ⟨.bad (String.singleton c), [c], rest⟩

/-- The first token of the text `c :: rest`.  Model of `_Scanner.next_token`. -/
def munch (integers : Bool) (c : Char) (rest : List Char) : Munch :=
  if c == Text.Quoted.doubleQuote then munchText rest
  else if c.isDigit then munchNumber integers (c :: rest)
  else if Text.isWordStart c then munchWord (c :: rest)
  else munchSign c rest

theorem gap_append_rest (comment : Bool) (cs : List Char) :
    (splitGap comment cs).1 ++ (splitGap comment cs).2 = cs := by
  induction cs generalizing comment with
  | nil => rfl
  | cons c cs ih =>
    unfold splitGap
    split
    · simp [ih]
    · split
      · simp [ih]
      · split
        · simp [ih]
        · rfl

theorem length_rest_le (comment : Bool) (cs : List Char) :
    (splitGap comment cs).2.length ≤ cs.length := by
  have := congrArg List.length (gap_append_rest comment cs)
  simp at this
  omega

theorem splitPoint_append (cs : List Char) : (splitPoint cs).1 ++ (splitPoint cs).2 = cs := by
  unfold splitPoint
  split
  · split <;> simp
  · rfl

theorem munchNumber_append (integers : Bool) (cs : List Char) :
    (munchNumber integers cs).lexeme ++ (munchNumber integers cs).rest = cs := by
  simp [munchNumber, splitPoint_append]

/-- A token and what follows it are the text. -/
theorem munch_lexeme_append_rest (integers : Bool) (c : Char) (rest : List Char) :
    (munch integers c rest).lexeme ++ (munch integers c rest).rest = c :: rest := by
  unfold munch
  split
  · rename_i hc
    have hc := beq_iff_eq.mp hc
    subst hc
    have h := List.takeWhile_append_dropWhile (p := (· != Text.Quoted.doubleQuote)) (l := rest)
    unfold munchText
    split
    · rfl
    · rename_i q more hd
      rw [hd] at h
      simp [h]
  · split
    · exact munchNumber_append integers (c :: rest)
    · split
      · simp [munchWord]
      · unfold munchSign
        split
        · rename_i h
          have h := beq_iff_eq.mp h
          subst h
          split <;> rfl
        · split <;> rfl

/-- A token has at least one character. -/
theorem munch_lexeme_ne_nil (integers : Bool) (c : Char) (rest : List Char) :
    (munch integers c rest).lexeme ≠ [] := by
  unfold munch
  split
  · unfold munchText
    split <;> simp
  · split
    · rename_i h
      simp [munchNumber, h]
    · split
      · rename_i h
        simp [munchWord, Text.isWordChar_of_isWordStart h]
      · unfold munchSign
        split
        · split <;> simp
        · split <;> simp

theorem length_munch_rest_lt (integers : Bool) (c : Char) (rest : List Char) :
    (munch integers c rest).rest.length < (c :: rest).length := by
  have h := congrArg List.length (munch_lexeme_append_rest integers c rest)
  have hne := List.length_pos_iff.mpr (munch_lexeme_ne_nil integers c rest)
  rw [List.length_append] at h
  omega

/-- A token without its place: the gap before it, what it is, and how it is written. -/
structure Piece where
  gap : List Char
  kind : Kind
  lexeme : List Char

/-- A text as pieces, with the gap after the last of them. -/
def pieces (integers : Bool) (cs : List Char) : List Piece × List Char :=
  match _h : splitGap false cs with
  | (gap, []) => ([], gap)
  | (gap, c :: rest) =>
    let m := munch integers c rest
    let (more, last) := pieces integers m.rest
    (⟨gap, m.kind, m.lexeme⟩ :: more, last)
termination_by cs.length
decreasing_by
  have h1 := length_rest_le false cs
  have h2 := length_munch_rest_lt integers c rest
  rw [_h] at h1
  exact Nat.lt_of_lt_of_le h2 h1

/-- The characters of a row of pieces. -/
def join (ps : List Piece) : List Char := ps.flatMap fun p => p.gap ++ p.lexeme

/-- All gaps and tokens together are the text. -/
theorem pieces_join (integers : Bool) (cs : List Char) :
    join (pieces integers cs).1 ++ (pieces integers cs).2 = cs := by
  fun_induction pieces integers cs with
  | case1 cs gap h =>
    have := gap_append_rest false cs
    rw [h] at this
    simpa [join] using this
  | case2 cs gap c rest h m more last hm ih =>
    have hg := gap_append_rest false cs
    have hl : m.lexeme ++ m.rest = c :: rest := munch_lexeme_append_rest integers c rest
    rw [hm] at ih
    simp only [join, List.flatMap_cons, List.append_assoc] at ih ⊢
    rw [ih, hl, ← hg, h]

end Scan

/-- Gives each piece its place. -/
def Script.place (s : Script) : Location → List Scan.Piece → List Token
  | _, [] => []
  | l, p :: ps =>
    let start := l.after p.gap
    let stop := start.after p.lexeme
    ⟨p.kind, String.ofList p.lexeme, ⟨s.file, start, stop⟩⟩ :: s.place stop ps

/-- Every token of a script, pieces that are no token included.  Model of `Lexer.scan`. -/
def Script.scan (s : Script) : List Token := s.place {} (Scan.pieces s.integers s.text.toList).1

/-- The end of a script as a token. -/
def Script.finish (s : Script) : Token :=
  let l := ({} : Location).after s.text.toList
  ⟨.finish, "", ⟨s.file, l, l⟩⟩

end DialogueScript
