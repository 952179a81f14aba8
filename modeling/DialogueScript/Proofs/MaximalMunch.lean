import DialogueScript.Proofs.Lexemes

/-!
# The longest match

What a token is, is said here class by class and without the scanner.  The first token of a text is
the longest of its beginnings that matches a class; where none does there is a bad piece.

* `Scan.Matches` — a text matches a token class, as a token of some kind;
* `Scan.First` — the first token of a text, by the longest match;
* `Script.Munched` — a token is the first one of the text from its start on, and no gap begins
  there;
* `Scan.matches_munch`, `Scan.munch_of_begins` — the scanner's good tokens match their class, and
  where a beginning of the text matches a class the scanner finds a good token, and none shorter;
* `Scan.first_munch`, `Scan.First.eq_munch` — so the scanner's token is the one first token of a
  text;
* `Scan.splitGap_of_gap`, `Script.eq_place_of_tiles` — there is one gap in front of a token, and one
  way to cut a text into first tokens;
* `Script.scan_munched` — **the tokens of a script are the longest matches between its gaps**, and
  nothing else is.
-/

namespace DialogueScript

namespace Scan

open Text (isWordStart isWordChar)
open Text.Quoted (doubleQuote)

/-- A text matches a token class: digits with a point and more digits, digits where integers are
allowed, a text between quotes, a word, or a sign.  A word is a keyword if it is one without its
capitals, and else a name. -/
inductive Matches (integers : Bool) : List Char → Kind → Prop
  | decimal {whole fraction : List Char} (hwhole : whole ≠ []) (hfraction : fraction ≠ [])
      (hdigits : ∀ c ∈ whole ++ fraction, c.isDigit = true) :
      Matches integers (whole ++ '.' :: fraction)
        (.number (Number.ofNumeral (whole ++ '.' :: fraction)))
  | integer {digits : List Char} (hintegers : integers = true) (hne : digits ≠ [])
      (hdigits : ∀ c ∈ digits, c.isDigit = true) :
      Matches integers digits (.number (Number.ofNumeral digits))
  | text {body : List Char} (hbody : doubleQuote ∉ body) :
      Matches integers (doubleQuote :: (body ++ [doubleQuote])) (.text (String.ofList body))
  | keyword {c : Char} {cs : List Char} {k : Keyword} (hstart : isWordStart c = true)
      (hword : ∀ d ∈ cs, isWordChar d = true) (hfold : Text.fold (c :: cs) = k.word.toList) :
      Matches integers (c :: cs) (.keyword k)
  | name {c : Char} {cs : List Char} (hstart : isWordStart c = true)
      (hword : ∀ d ∈ cs, isWordChar d = true)
      (hfold : ∀ k : Keyword, Text.fold (c :: cs) ≠ k.word.toList) :
      Matches integers (c :: cs) (.name (String.ofList (c :: cs)))
  | sign (s : Sign) : Matches integers s.written.toList (.sign s)

/-- The first token of a text, if the text begins with no gap.  Where no class matches, a whole row
of digits is bad if the text begins with one, and else a single character. -/
inductive First (integers : Bool) (text : List Char) : List Char → Kind → Prop
  | token {lexeme : List Char} {k : Kind} (hbegins : lexeme <+: text)
      (hmatches : Matches integers lexeme k)
      (hlongest : ∀ l k', l <+: text → Matches integers l k' → l.length ≤ lexeme.length) :
      First integers text lexeme k
  | digits {digits rest : List Char} (hintegers : integers = false) (htext : text = digits ++ rest)
      (hne : digits ≠ []) (hdigits : ∀ c ∈ digits, c.isDigit = true)
      (hrest : ∀ c ∈ rest.head?, c.isDigit = false)
      (hnone : ∀ l k, l <+: text → ¬ Matches integers l k) :
      First integers text digits (.bad (String.ofList digits))
  | character {c : Char} {rest : List Char} (htext : text = c :: rest) (hc : c.isDigit = false)
      (hnone : ∀ l k, l <+: text → ¬ Matches integers l k) :
      First integers text [c] (.bad (String.ofList [c]))

variable {integers : Bool} {c : Char} {cs : List Char}

/-! ## The scanner's tokens match -/

theorem matches_munchText {cs : List Char} (hgood : (munchText cs).kind.isBad = false) :
    Matches integers (munchText cs).lexeme (munchText cs).kind := by
  have hbody : doubleQuote ∉ cs.takeWhile (· != doubleQuote) := by
    intro hmem
    have hne := List.mem_takeWhile_imp (p := (· != doubleQuote)) hmem
    exact bne_iff_ne.mp hne rfl
  have hnot := List.head?_dropWhile_not (· != doubleQuote) cs
  unfold munchText at hgood ⊢
  dsimp only at hgood ⊢
  cases hdrop : cs.dropWhile (· != doubleQuote) with
  | nil =>
    rw [hdrop] at hgood
    cases hgood
  | cons quote rest =>
    rw [hdrop] at hnot
    have hquote : (quote != doubleQuote) = false := hnot
    obtain rfl : quote = doubleQuote := bne_eq_false_iff_eq.mp hquote
    exact .text hbody

/-- A point in front of a number's fraction has digits on both sides. -/
theorem splitPoint_cases (cs : List Char) :
    (splitPoint cs).1 = [] ∨ ∃ fraction, (splitPoint cs).1 = '.' :: fraction ∧ fraction ≠ [] ∧
      ∀ c ∈ fraction, c.isDigit = true := by
  unfold splitPoint
  split
  · split
    · exact .inl rfl
    · rename_i rest hne
      refine .inr ⟨rest.takeWhile Char.isDigit, rfl, ?_, fun c hc => List.mem_takeWhile_imp hc⟩
      exact fun hnil => hne (List.isEmpty_iff.mpr hnil)
  · exact .inl rfl

theorem matches_munchNumber (hc : c.isDigit = true)
    (hgood : (munchNumber integers (c :: cs)).kind.isBad = false) :
    Matches integers (munchNumber integers (c :: cs)).lexeme
      (munchNumber integers (c :: cs)).kind := by
  have hwhole : ∀ d ∈ (c :: cs).takeWhile Char.isDigit, d.isDigit = true :=
    fun d hd => List.mem_takeWhile_imp hd
  have hne : (c :: cs).takeWhile Char.isDigit ≠ [] := by simp [hc]
  simp only [munchNumber] at hgood ⊢
  generalize (c :: cs).takeWhile Char.isDigit = whole at hwhole hne hgood ⊢
  rcases splitPoint_cases ((c :: cs).dropWhile Char.isDigit) with hnil | ⟨fraction, hsome, hf, hds⟩
  · rw [hnil] at hgood ⊢
    cases integers with
    | false => cases hgood
    | true =>
      rw [List.append_nil]
      exact .integer rfl hne hwhole
  · rw [hsome]
    refine .decimal hne hf fun d hd => ?_
    rcases List.mem_append.mp hd with hd | hd
    · exact hwhole d hd
    · exact hds d hd

theorem matches_munchWord (hc : isWordStart c = true) :
    Matches integers (munchWord (c :: cs)).lexeme (munchWord (c :: cs)).kind := by
  have hword : ∀ d ∈ cs.takeWhile isWordChar, isWordChar d = true :=
    fun d hd => List.mem_takeWhile_imp hd
  have htake : (c :: cs).takeWhile isWordChar = c :: cs.takeWhile isWordChar := by
    rw [List.takeWhile_cons, if_pos (Text.isWordChar_of_isWordStart hc)]
  simp only [munchWord]
  rw [htake]
  cases hk : Keyword.ofWord? (c :: cs.takeWhile isWordChar) with
  | some k => exact .keyword hc hword (Keyword.ofWord?_eq_some_iff.mp hk)
  | none =>
    refine .name hc hword fun k hfold => ?_
    rw [Keyword.ofWord?_eq_some_iff.mpr hfold] at hk
    cases hk

theorem matches_munchSign (hgood : (munchSign c cs).kind.isBad = false) :
    Matches integers (munchSign c cs).lexeme (munchSign c cs).kind := by
  unfold munchSign at hgood ⊢
  split
  · split
    · exact .sign .equals
    · exact .sign .assign
  · rename_i hassign
    rw [if_neg hassign] at hgood
    split
    · rename_i s hs
      have hwritten : [c] = s.written.toList := by
        unfold Sign.ofChar? at hs
        split at hs <;> cases hs <;> rfl
      rw [hwritten]
      exact .sign s
    · rename_i hnone
      rw [hnone] at hgood
      cases hgood

/-- **A good token of the scanner matches its class.** -/
theorem matches_munch (hgood : (munch integers c cs).kind.isBad = false) :
    Matches integers (munch integers c cs).lexeme (munch integers c cs).kind := by
  unfold munch at hgood ⊢
  split
  · rename_i hquote
    rw [if_pos hquote] at hgood
    exact matches_munchText hgood
  · rename_i hquote
    rw [if_neg hquote] at hgood
    split
    · rename_i hdigit
      rw [if_pos hdigit] at hgood
      exact matches_munchNumber hdigit hgood
    · rename_i hdigit
      rw [if_neg hdigit] at hgood
      split
      · rename_i hstart
        exact matches_munchWord hstart
      · rename_i hstart
        rw [if_neg hstart] at hgood
        exact matches_munchSign hgood

/-! ## Nothing longer matches -/

theorem length_le_takeWhile {p : Char → Bool} {l : List Char} (h : ∀ c ∈ l, p c = true)
    (rest : List Char) : l.length ≤ ((l ++ rest).takeWhile p).length := by
  rw [List.takeWhile_append_of_pos h, List.length_append]
  exact Nat.le_add_right _ _

/-- A character with which a number or a word begins is no quote. -/
theorem ne_quote_of_class {p : Char → Bool} (hc : p c = true) (hquote : p doubleQuote = false) :
    (c == doubleQuote) = false := by
  rw [beq_eq_false_iff_ne]
  rintro rfl
  rw [hquote] at hc
  cases hc

theorem munch_eq_munchNumber (hc : c.isDigit = true) :
    munch integers c cs = munchNumber integers (c :: cs) := by
  unfold munch
  rw [ne_quote_of_class hc rfl, hc]
  rfl

theorem munch_eq_munchWord (hc : isWordStart c = true) :
    munch integers c cs = munchWord (c :: cs) := by
  have hdigit : c.isDigit = false := by
    by_contra h
    rw [Text.isWordStart_of_isDigit (Bool.eq_true_of_not_eq_false h)] at hc
    cases hc
  unfold munch
  rw [ne_quote_of_class hc rfl, hdigit, hc]
  rfl

/-- All characters of a word go on with it. -/
theorem wordChar_of_start (hc : isWordStart c = true) (hcs : ∀ d ∈ cs, isWordChar d = true) :
    ∀ d ∈ c :: cs, isWordChar d = true :=
  List.forall_mem_cons.mpr ⟨Text.isWordChar_of_isWordStart hc, hcs⟩

theorem munchWord_isBad (cs : List Char) : (munchWord cs).kind.isBad = false := by
  simp only [munchWord]
  split <;> rfl

/-- Where digits, a point and digits come first, the number has at least these. -/
theorem munchNumber_of_decimal {whole fraction rest : List Char} (hfraction : fraction ≠ [])
    (hdigits : ∀ c ∈ whole ++ fraction, c.isDigit = true) :
    (munchNumber integers (whole ++ '.' :: fraction ++ rest)).kind.isBad = false ∧
      (whole ++ '.' :: fraction).length ≤
        (munchNumber integers (whole ++ '.' :: fraction ++ rest)).lexeme.length := by
  have hwhole : ∀ c ∈ whole, c.isDigit = true := fun c hc => hdigits c (List.mem_append_left _ hc)
  have hlong := length_le_takeWhile (fun c hc => hdigits c (List.mem_append_right whole hc)) rest
  have hpoint : ∀ c ∈ ('.' :: (fraction ++ rest)).head?, c.isDigit = false := by simp
  obtain ⟨htake, hdrop⟩ := Number.takeWhile_dropWhile_append hwhole hpoint
  have hne : ((fraction ++ rest).takeWhile Char.isDigit).isEmpty = false := by
    have hpos := List.length_pos_iff.mpr hfraction
    rw [List.isEmpty_eq_false_iff, ← List.length_pos_iff]
    omega
  have hsplit : splitPoint ('.' :: (fraction ++ rest)) =
      ('.' :: (fraction ++ rest).takeWhile Char.isDigit,
        (fraction ++ rest).dropWhile Char.isDigit) := by
    rw [splitPoint, hne]
    rfl
  have htext : whole ++ '.' :: fraction ++ rest = whole ++ '.' :: (fraction ++ rest) := by simp
  rw [htext]
  simp only [munchNumber]
  rw [htake, hdrop, hsplit]
  refine ⟨rfl, ?_⟩
  rw [List.length_append, List.length_append, List.length_cons, List.length_cons]
  omega

/-- **Where a beginning of the text matches a class, the scanner finds a good token, and none
shorter.** -/
theorem munch_of_begins {l : List Char} {k : Kind} (h : Matches integers l k) (hl : l <+: c :: cs) :
    (munch integers c cs).kind.isBad = false ∧
      l.length ≤ (munch integers c cs).lexeme.length := by
  obtain ⟨rest, htext⟩ := hl
  cases h with
  | @decimal whole fraction hwhole hfraction hdigits =>
    obtain ⟨d, ds, rfl⟩ := List.exists_cons_of_ne_nil hwhole
    obtain ⟨rfl, -⟩ := List.cons_eq_cons.mp htext
    rw [munch_eq_munchNumber (hdigits d List.mem_cons_self), ← htext]
    exact munchNumber_of_decimal hfraction hdigits
  | @integer _ hintegers hne hdigits =>
    have hlong := length_le_takeWhile hdigits rest
    obtain ⟨d, ds, rfl⟩ := List.exists_cons_of_ne_nil hne
    obtain ⟨rfl, -⟩ := List.cons_eq_cons.mp htext
    rw [munch_eq_munchNumber (hdigits d List.mem_cons_self), ← htext]
    simp only [munchNumber]
    rw [hintegers, Bool.not_true, Bool.and_false, List.length_append]
    exact ⟨rfl, Nat.le_trans hlong (Nat.le_add_right _ _)⟩
  | @text body hbody =>
    have hne : ∀ d ∈ body, (d != doubleQuote) = true := by
      intro d hd
      rw [bne_iff_ne]
      rintro rfl
      exact hbody hd
    have hquote : ∀ d ∈ (doubleQuote :: rest).head?, (d != doubleQuote) = false := by simp
    obtain ⟨htake, hdrop⟩ := Number.takeWhile_dropWhile_append hne hquote
    obtain ⟨rfl, hcs⟩ := List.cons_eq_cons.mp htext
    have hbody : cs = body ++ doubleQuote :: rest := by
      rw [← hcs]
      simp
    have hmunch : munch integers doubleQuote cs = munchText cs := rfl
    rw [hmunch, hbody]
    unfold munchText
    rw [htake, hdrop]
    exact ⟨rfl, Nat.le_refl _⟩
  | @keyword d ds _ hstart hword _ | @name d ds hstart hword _ =>
    all_goals
      obtain ⟨rfl, -⟩ := List.cons_eq_cons.mp htext
      rw [munch_eq_munchWord hstart, ← htext]
      exact ⟨munchWord_isBad _, length_le_takeWhile (wordChar_of_start hstart hword) rest⟩
  | sign s =>
    cases s with
    | assign =>
      obtain ⟨rfl, -⟩ := List.cons_eq_cons.mp htext
      show (munchSign '=' cs).kind.isBad = false ∧ 1 ≤ (munchSign '=' cs).lexeme.length
      unfold munchSign
      split
      · split <;> exact ⟨rfl, by simp⟩
      · rename_i hne
        exact absurd rfl hne
    | _ =>
      obtain ⟨rfl, rfl⟩ := List.cons_eq_cons.mp htext
      exact ⟨rfl, Nat.le_refl _⟩

/-! ## There is one first token -/

/-- A text that matches a class is one token. -/
theorem Matches.isToken {l : List Char} {k : Kind} (h : Matches integers l k) : IsToken l k := by
  cases h with
  | @decimal whole fraction hwhole hfraction hdigits =>
    have hpoint : whole ++ '.' :: fraction = whole ++ Number.point fraction := by
      rw [Number.point, if_neg hfraction]
    exact isToken_numeral ⟨hpoint, hwhole, fun c hc => hdigits c (List.mem_append_left _ hc),
      fun c hc => hdigits c (List.mem_append_right _ hc)⟩
  | integer hintegers hne hdigits =>
    exact isToken_numeral ⟨(List.append_nil _).symm, hne, hdigits, List.forall_mem_nil _⟩
  | @text body hbody =>
    have htoken : IsToken _ _ := isToken_text (s := String.ofList body) (by simpa using hbody)
    have hwritten : ("\"" ++ String.ofList body ++ "\"").toList =
        doubleQuote :: (body ++ [doubleQuote]) := by
      simp [doubleQuote]
    rwa [hwritten] at htoken
  | @keyword d ds k hstart hword hfold =>
    have htoken := isToken_word hstart (wordChar_of_start hstart hword)
    have hkind : (munchWord (d :: ds)).kind = .keyword k := by
      simp only [munchWord]
      rw [List.takeWhile_eq_self_iff.mpr (wordChar_of_start hstart hword),
        Keyword.ofWord?_eq_some_iff.mpr hfold]
    rwa [hkind] at htoken
  | @name d ds hstart hword hfold =>
    have htoken := isToken_word hstart (wordChar_of_start hstart hword)
    have hplain : Keyword.ofWord? (d :: ds) = none := by
      by_contra h
      obtain ⟨k, hk⟩ := Option.ne_none_iff_exists'.mp h
      exact hfold k (Keyword.ofWord?_eq_some_iff.mp hk)
    have hkind : (munchWord (d :: ds)).kind = .name (String.ofList (d :: ds)) := by
      simp only [munchWord]
      rw [List.takeWhile_eq_self_iff.mpr (wordChar_of_start hstart hword), hplain]
    rwa [hkind] at htoken
  | sign s => exact isToken_sign s

theorem Matches.unique {l : List Char} {k k' : Kind} (h : Matches integers l k)
    (h' : Matches integers l k') : k = k' := by
  obtain ⟨c, cs, rfl, -, hmunch⟩ := h.isToken
  obtain ⟨c', cs', heq, -, hmunch'⟩ := h'.isToken
  obtain ⟨rfl, rfl⟩ := List.cons_eq_cons.mp heq
  rw [hmunch] at hmunch'
  exact congrArg Munch.kind hmunch'

/-- A bad piece of the scanner is a whole row of digits, or else one character. -/
theorem munch_bad (hbad : (munch integers c cs).kind.isBad = true) :
    (munch integers c cs).kind = .bad (String.ofList (munch integers c cs).lexeme) ∧
      (c.isDigit = true ∧ integers = false ∧
          (munch integers c cs).lexeme = (c :: cs).takeWhile Char.isDigit ∨
        c.isDigit = false ∧ (munch integers c cs).lexeme = [c]) := by
  unfold munch at hbad ⊢
  split
  · rename_i hquote
    rw [if_pos hquote] at hbad
    obtain rfl : c = doubleQuote := beq_iff_eq.mp hquote
    unfold munchText at hbad ⊢
    split
    · exact ⟨rfl, .inr ⟨rfl, rfl⟩⟩
    · rename_i hdrop
      rw [hdrop] at hbad
      cases hbad
  · rename_i hquote
    rw [if_neg hquote] at hbad
    split
    · rename_i hdigit
      rw [if_pos hdigit] at hbad
      simp only [munchNumber] at hbad ⊢
      cases hfraction : (splitPoint ((c :: cs).dropWhile Char.isDigit)).1 with
      | nil =>
        rw [hfraction] at hbad
        cases integers with
        | true => cases hbad
        | false => exact ⟨rfl, .inl ⟨hdigit, rfl, List.append_nil _⟩⟩
      | cons d ds =>
        rw [hfraction] at hbad
        cases hbad
    · rename_i hdigit
      rw [if_neg hdigit] at hbad
      have hnot : c.isDigit = false := Bool.eq_false_iff.mpr hdigit
      split
      · rename_i hstart
        rw [if_pos hstart, munchWord_isBad] at hbad
        cases hbad
      · rename_i hstart
        rw [if_neg hstart] at hbad
        unfold munchSign at hbad ⊢
        split
        · rename_i hassign
          rw [if_pos hassign] at hbad
          split at hbad <;> cases hbad
        · rename_i hassign
          rw [if_neg hassign] at hbad
          split
          · rename_i s hs
            rw [hs] at hbad
            cases hbad
          · exact ⟨rfl, .inr ⟨hnot, rfl⟩⟩

theorem munch_begins : (munch integers c cs).lexeme <+: c :: cs :=
  ⟨_, munch_lexeme_append_rest integers c cs⟩

/-- **The scanner's token is the first one of the text.** -/
theorem first_munch :
    First integers (c :: cs) (munch integers c cs).lexeme (munch integers c cs).kind := by
  cases hgood : (munch integers c cs).kind.isBad with
  | false =>
    exact .token munch_begins (matches_munch hgood)
      fun l k hl hmatches => (munch_of_begins hmatches hl).2
  | true =>
    have hnone : ∀ l k, l <+: c :: cs → ¬ Matches integers l k := by
      intro l k hl hmatches
      rw [(munch_of_begins hmatches hl).1] at hgood
      cases hgood
    obtain ⟨hkind, ⟨hc, hintegers, hlexeme⟩ | ⟨hc, hlexeme⟩⟩ := munch_bad hgood
    · rw [hkind, hlexeme]
      refine .digits hintegers List.takeWhile_append_dropWhile.symm ?_
        (fun d hd => List.mem_takeWhile_imp hd) ?_ hnone
      · simp [hc]
      · intro d hd
        have hnot := List.head?_dropWhile_not Char.isDigit (c :: cs)
        rw [Option.mem_def.mp hd] at hnot
        exact hnot
    · rw [hkind, hlexeme]
      exact .character rfl hc hnone

/-- **Every first token of the text is the scanner's.** -/
theorem First.eq_munch {l : List Char} {k : Kind} (h : First integers (c :: cs) l k) :
    l = (munch integers c cs).lexeme ∧ k = (munch integers c cs).kind := by
  have hbad (hnone : ∀ l k, l <+: c :: cs → ¬ Matches integers l k) :
      (munch integers c cs).kind.isBad = true := by
    by_contra hgood
    exact hnone _ _ munch_begins (matches_munch (Bool.eq_false_iff.mpr hgood))
  cases h with
  | token hbegins hmatches hlongest =>
    obtain ⟨hgood, hle⟩ := munch_of_begins hmatches hbegins
    have hmunch := matches_munch hgood
    have hge := hlongest _ _ munch_begins hmunch
    obtain rfl : l = (munch integers c cs).lexeme :=
      (List.prefix_of_prefix_length_le hbegins munch_begins hle).eq_of_length
        (Nat.le_antisymm hle hge)
    exact ⟨rfl, hmatches.unique hmunch⟩
  | @digits _ rest hintegers htext hne hdigits hrest hnone =>
    obtain ⟨htake, -⟩ := Number.takeWhile_dropWhile_append hdigits hrest
    obtain ⟨d, ds, rfl⟩ := List.exists_cons_of_ne_nil hne
    obtain ⟨rfl, -⟩ := List.cons_eq_cons.mp htext
    obtain ⟨hkind, ⟨-, -, hlexeme⟩ | ⟨hc, -⟩⟩ := munch_bad (hbad hnone)
    · rw [htext, htake] at hlexeme
      rw [hkind, hlexeme]
      exact ⟨rfl, rfl⟩
    · rw [hdigits c List.mem_cons_self] at hc
      cases hc
  | character htext hc hnone =>
    obtain ⟨rfl, -⟩ := List.cons_eq_cons.mp htext
    obtain ⟨hkind, ⟨hdigit, -, -⟩ | ⟨-, hlexeme⟩⟩ := munch_bad (hbad hnone)
    · rw [hdigit] at hc
      cases hc
    · rw [hkind, hlexeme]
      exact ⟨rfl, rfl⟩

/-! ## There is one gap -/

/-- A comment is taken up to the next line feed. -/
theorem splitGap_comment {body rest : List Char} (hbody : '\n' ∉ body)
    (hrest : rest = [] ∨ ∃ more, rest = '\n' :: more) :
    splitGap true (body ++ rest) =
      (body ++ (splitGap false rest).1, (splitGap false rest).2) := by
  induction body with
  | nil =>
    rcases hrest with rfl | ⟨more, rfl⟩ <;> rfl
  | cons d body ih =>
    rw [List.mem_cons, not_or] at hbody
    have hne : (d != '\n') = true := bne_iff_ne.mpr (Ne.symm hbody.1)
    rw [List.cons_append, splitGap, if_pos rfl, hne, ih hbody.2]
    rfl

/-- Behind a gap that is all that is left there is no piece. -/
theorem pieces_nil_of_splitGap {gap : List Char} (h : splitGap false cs = (gap, [])) :
    (pieces integers cs).1 = [] := by
  rw [pieces]
  split
  · rfl
  · rename_i h'
    rw [h] at h'
    cases h'

/-- The scanner takes a gap whole, whatever it is that ends it. -/
theorem splitGap_of_gap {gap rest : List Char} (h : Gap gap rest)
    (hrest : ∀ c ∈ rest.head?, Solid c) : splitGap false (gap ++ rest) = (gap, rest) := by
  induction h with
  | nil rest =>
    cases rest with
    | nil => rfl
    | cons c rest =>
      have hc : Solid c := hrest c rfl
      rw [List.nil_append, splitGap, hc.space, hc.sharp]
      rfl
  | blank hc _ ih =>
    rw [List.cons_append, splitGap, isSpace_iff.mpr hc, ih hrest]
    rfl
  | @comment body gap rest hbody hend _ ih =>
    have hcomment := splitGap_comment hbody hend
    rw [ih hrest] at hcomment
    rw [List.cons_append, List.cons_append, List.append_assoc]
    show ('#' :: (splitGap true (body ++ (gap ++ rest))).1,
      (splitGap true (body ++ (gap ++ rest))).2) = _
    rw [hcomment]

end Scan

namespace Script

open Scan (Solid First)

variable {s : Script}

/-- The token is the first one of the text from its start on, and no gap begins there. -/
structure Munched (s : Script) (t : Token) : Prop where
  solid : ∀ c ∈ (s.text.toList.drop t.span.start.offset).head?, Solid c
  first : First s.integers (s.text.toList.drop t.span.start.offset) t.lexeme.toList t.kind
  file : t.span.file = s.file

/-- A location of the text is known from its offset. -/
theorem Located.ext {l l' : Location} (h : s.Located l) (h' : s.Located l')
    (hoffset : l.offset = l'.offset) : l = l' := by
  have hline : l.line = l'.line := by rw [h.line, h'.line, hoffset]
  have hcolumn : l.column = l'.column := by rw [h.column, h'.column, hoffset]
  cases l
  cases l'
  cases hline
  cases hcolumn
  cases hoffset
  rfl

/-- Every token that is placed is the first one from its start on. -/
theorem munched_place {integers : Bool} (hintegers : s.integers = integers) (cs pre : List Char)
    (htext : s.text.toList = pre ++ cs) {t : Token}
    (ht : t ∈ s.place (({} : Location).after pre) (Scan.pieces integers cs).1) : s.Munched t := by
  fun_induction Scan.pieces integers cs generalizing pre with
  | case1 cs gap h => cases ht
  | case2 cs gap c rest h m more last hm ih =>
    obtain ⟨hcs, -⟩ := Scan.gap_of_splitGap h
    have hlexeme : m.lexeme ++ m.rest = c :: rest := Scan.munch_lexeme_append_rest integers c rest
    have htoken : s.text.toList = (pre ++ gap) ++ c :: rest := by
      rw [htext, hcs, List.append_assoc]
    have hmore : s.text.toList = (pre ++ gap ++ m.lexeme) ++ m.rest := by
      rw [htoken, ← hlexeme, List.append_assoc _ m.lexeme]
    rw [place, ← Location.after_append, ← Location.after_append] at ht
    rcases List.mem_cons.mp ht with rfl | ht
    · have hdrop : s.text.toList.drop (({} : Location).after (pre ++ gap)).offset = c :: rest := by
        rw [Location.offset_after, htoken]
        show ((pre ++ gap) ++ c :: rest).drop (0 + (pre ++ gap).length) = _
        rw [Nat.zero_add, List.drop_left]
      refine ⟨?_, ?_, rfl⟩
      · intro d hd
        rw [hdrop] at hd
        obtain rfl : c = d := Option.some.inj hd
        exact Scan.solid_of_splitGap h
      · rw [hdrop, String.toList_ofList, hintegers]
        exact Scan.first_munch
    · rw [hm] at ih
      exact ih _ hmore ht

/-- A stretch of a text that goes on behind it, and is not empty. -/
theorem length_of_extract {text lexeme : List Char} {i j : Nat} (hj : j ≤ text.length)
    (hlexeme : lexeme = text.extract i j) (hne : lexeme ≠ []) : j = i + lexeme.length := by
  have hlength : lexeme.length = min (j - i) (text.length - i) := by
    rw [hlexeme, List.extract_eq_take_drop, List.length_take, List.length_drop]
  have hpos := List.length_pos_iff.mpr hne
  omega

/-- **There is only one way to cut a text into first tokens.** -/
theorem eq_place_of_tiles {i : Nat} {ts : List Token} (htiles : s.Tiles i ts)
    (hmunched : ∀ t ∈ ts, s.Munched t) {pre cs : List Char} (htext : s.text.toList = pre ++ cs)
    (hi : pre.length = i) :
    ts = s.place (({} : Location).after pre) (Scan.pieces s.integers cs).1 := by
  induction htiles generalizing pre cs with
  | last hgap =>
    rw [← hi, htext, List.drop_left] at hgap
    have hsplit := Scan.splitGap_of_gap hgap (by simp)
    rw [List.append_nil] at hsplit
    rw [Scan.pieces_nil_of_splitGap hsplit]
    rfl
  | @token i t ts hle hgap hne hlexeme hstart hstop _ ih =>
    obtain ⟨hsolid, hfirst, hfile⟩ := hmunched t List.mem_cons_self
    obtain ⟨gap, after, hcs, hoffset⟩ : ∃ gap after, cs = gap ++ after ∧
        t.span.start.offset = (pre ++ gap).length := by
      have hstart := hstart.offset
      rw [htext, List.length_append] at hstart
      refine ⟨cs.take (t.span.start.offset - i), cs.drop (t.span.start.offset - i),
        (List.take_append_drop _ _).symm, ?_⟩
      rw [List.length_append, List.length_take]
      omega
    have hwhole : s.text.toList = (pre ++ gap) ++ after := by
      rw [htext, hcs, List.append_assoc]
    have hdrop : s.text.toList.drop t.span.start.offset = after := by
      rw [hoffset, hwhole, List.drop_left]
    have hextract : s.text.toList.extract i t.span.start.offset = gap := by
      rw [hoffset, List.length_append, ← hi, htext, hcs, extract_between]
    rw [hdrop] at hsolid hfirst hgap
    rw [hextract] at hgap
    have hlexemeNe : t.lexeme.toList ≠ [] := by simpa using hne
    have hstopOffset := length_of_extract hstop.offset hlexeme hlexemeNe
    have hafter : after ≠ [] := by
      rintro rfl
      rw [hlexeme, hwhole, List.append_nil, hoffset] at hlexemeNe
      exact hlexemeNe (by simp [List.extract_eq_take_drop])
    obtain ⟨c, rest, rfl⟩ := List.exists_cons_of_ne_nil hafter
    obtain ⟨hl, hk⟩ := hfirst.eq_munch
    have hmore : s.text.toList =
        (pre ++ gap ++ t.lexeme.toList) ++ (Scan.munch s.integers c rest).rest := by
      rw [hwhole, List.append_assoc _ t.lexeme.toList, hl, Scan.munch_lexeme_append_rest]
    have hlength : (pre ++ gap ++ t.lexeme.toList).length = t.span.stop.offset := by
      rw [List.length_append, hstopOffset, hoffset]
    have hts := ih (fun t ht => hmunched t (List.mem_cons_of_mem _ ht)) hmore hlength
    have hspanStart : t.span.start = ({} : Location).after (pre ++ gap) := by
      refine hstart.ext (isPlace_after hwhole).located ?_
      rw [Location.offset_after, hoffset]
      exact (Nat.zero_add _).symm
    have hspanStop : t.span.stop = ({} : Location).after (pre ++ gap ++ t.lexeme.toList) := by
      refine hstop.ext (isPlace_after hmore).located ?_
      rw [Location.offset_after, ← hlength]
      exact (Nat.zero_add _).symm
    have hspan : t.span = ⟨s.file, ({} : Location).after (pre ++ gap),
        ({} : Location).after (pre ++ gap ++ t.lexeme.toList)⟩ := by
      rw [← hfile, ← hspanStart, ← hspanStop]
    have ht : t = ⟨(Scan.munch s.integers c rest).kind, t.lexeme, t.span⟩ := by rw [← hk]
    rw [hcs, Scan.pieces_of_splitGap (Scan.splitGap_of_gap hgap hsolid), place,
      ← Location.after_append, ← Location.after_append, ← hl, String.ofList_toList, ← hts, ← hspan,
      ← ht]

/-- **The tokens of a script are the longest matches between its gaps.**  Nothing else tiles the
text with first tokens. -/
theorem scan_munched (s : Script) (ts : List Token) :
    (s.Tiles 0 ts ∧ ∀ t ∈ ts, s.Munched t) ↔ ts = s.scan := by
  constructor
  · rintro ⟨htiles, hmunched⟩
    exact eq_place_of_tiles htiles hmunched (List.nil_append _).symm rfl
  · rintro rfl
    exact ⟨tiles_place s.integers s.text.toList [] rfl,
      fun t ht => munched_place rfl _ [] (List.nil_append _).symm ht⟩

end Script

end DialogueScript
