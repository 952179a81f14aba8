import DialogueScript.Proofs.MaximalMunch
import DialogueScript.Proofs.Operations

/-!
# Texts that are numbers

Which texts are numbers, and which number each of them is, is said here by a grammar: a sign that
may be left out, then digits with a point among them, behind them or in front of them and maybe an
exponent, or one of three words in any capitals.

* `Signed`, `Significand`, `Exponent` — the parts of a numeral, with what they stand for;
* `NumberText` — a text and the number that it is;
* `readExponent_eq_some_iff`, `readDecimal_eq_some_iff`, `spells_ascii` — what the parts are read
  as;
* `readNumber_eq_number_iff` — **the texts that are read as numbers are those of the grammar**;
* `numberText_of_matches` — the lexeme of a number in a script is one of them;
* `readNumber_texts` — so a literal and the same characters as a text are the same number.
-/

namespace DialogueScript.Number

/-! ## The grammar -/

/-- A sign, or none; `true` is minus. -/
inductive Signed : List Char → Bool → Prop
  | absent : Signed [] false
  | plus : Signed ['+'] false
  | minus : Signed ['-'] true

/-- Digits, at least one. -/
def Digits (ds : List Char) : Prop := ds ≠ [] ∧ ∀ c ∈ ds, c.isDigit = true

/-- Digits, behind which may stand a point and more digits, or a point and digits; with the digits
on the two sides of the point. -/
inductive Significand : List Char → List Char → List Char → Prop
  | whole {whole : List Char} (hwhole : Digits whole) : Significand whole whole []
  | point {whole fraction : List Char} (hwhole : Digits whole)
      (hfraction : ∀ c ∈ fraction, c.isDigit = true) :
      Significand (whole ++ '.' :: fraction) whole fraction
  | fraction {fraction : List Char} (hfraction : Digits fraction) :
      Significand ('.' :: fraction) [] fraction

/-- The power of ten behind a numeral, or none. -/
inductive Exponent : List Char → Int → Prop
  | absent : Exponent [] 0
  | present {letter : Char} {sign ds : List Char} {negative : Bool}
      (hletter : letter = 'e' ∨ letter = 'E') (hsign : Signed sign negative) (hds : Digits ds) :
      Exponent (letter :: (sign ++ ds))
        (if negative then -(digitsValue ds : Int) else digitsValue ds)

/-- The words for infinity. -/
def infinityWords : List (List Char) :=
  [['i', 'n', 'f'], ['i', 'n', 'f', 'i', 'n', 'i', 't', 'y']]

/-- The word for the number that is none. -/
def nanWord : List Char := ['n', 'a', 'n']

/-- A text that is a number.  A numeral is the number nearest to its decimal; words count in any
capitals of ASCII. -/
inductive NumberText : List Char → Float → Prop
  | numeral {sign cs es whole fraction : List Char} {negative : Bool} {e : Int}
      (hsign : Signed sign negative) (hcs : Significand cs whole fraction) (hes : Exponent es e) :
      NumberText (sign ++ (cs ++ es))
        (ofMagnitude negative
          (Decimal.magnitude ⟨digitsValue (whole ++ fraction), e - fraction.length⟩))
  | infinity {sign cs : List Char} {negative : Bool} (hsign : Signed sign negative)
      (hword : cs.map Char.toLower ∈ infinityWords) :
      NumberText (sign ++ cs) (ofMagnitude negative infinite)
  | notANumber {sign cs : List Char} {negative : Bool} (hsign : Signed sign negative)
      (hword : cs.map Char.toLower = nanWord) : NumberText (sign ++ cs) notANumber

/-! ## Signs -/

theorem signed_splitSign (cs : List Char) :
    ∃ sign, Signed sign (splitSign cs).1 ∧ cs = sign ++ (splitSign cs).2 := by
  unfold splitSign
  split
  · exact ⟨['+'], .plus, rfl⟩
  · exact ⟨['-'], .minus, rfl⟩
  · exact ⟨[], .absent, rfl⟩

/-- A sign is split off what begins with none. -/
theorem Signed.splitSign {sign cs : List Char} {negative : Bool} (h : Signed sign negative)
    (hcs : ∀ c ∈ cs.head?, c ≠ '+' ∧ c ≠ '-') : splitSign (sign ++ cs) = (negative, cs) := by
  cases h with
  | absent =>
    rw [List.nil_append]
    unfold Number.splitSign
    split
    · exact absurd rfl (hcs '+' rfl).1
    · exact absurd rfl (hcs '-' rfl).2
    · rfl
  | plus => rfl
  | minus => rfl

theorem ne_sign_of_isDigit {c : Char} (hc : c.isDigit = true) : c ≠ '+' ∧ c ≠ '-' := by
  constructor
  · rintro rfl
    cases hc
  · rintro rfl
    cases hc

/-! ## Numerals -/

theorem Digits.ne_sign {ds : List Char} (h : Digits ds) : ∀ c ∈ ds.head?, c ≠ '+' ∧ c ≠ '-' :=
  fun c hc => ne_sign_of_isDigit (h.2 c (List.mem_of_head? hc))

/-- What is read as an exponent is one. -/
theorem readExponent_eq_some_iff {es : List Char} {e : Int} :
    readExponent es = some e ↔ Exponent es e := by
  constructor
  · intro h
    cases es with
    | nil =>
      obtain rfl := Option.some.inj h
      exact .absent
    | cons letter rest =>
      obtain ⟨sign, hsign, hrest⟩ := signed_splitSign rest
      simp only [readExponent, Bool.or_eq_true, beq_iff_eq] at h
      generalize splitSign rest = split at hsign hrest h
      split at h
      · rename_i hletter
        split at h
        · rename_i hds
          rw [Bool.and_eq_true, Bool.not_eq_true', List.isEmpty_eq_false_iff,
            List.all_eq_true] at hds
          obtain rfl := Option.some.inj h
          rw [hrest]
          exact .present hletter hsign hds
        · cases h
      · cases h
  · intro h
    cases h with
    | absent => rfl
    | @present letter sign ds negative hletter hsign hds =>
      have hnonempty : ds.isEmpty = false := List.isEmpty_eq_false_iff.mpr hds.1
      have hall : ds.all Char.isDigit = true := List.all_eq_true.mpr hds.2
      simp only [readExponent]
      rw [hsign.splitSign hds.ne_sign]
      simp [hletter, hnonempty, hall]

/-- An exponent begins with a letter. -/
theorem Exponent.head {es : List Char} {e : Int} (h : Exponent es e) :
    ∀ c ∈ es.head?, c.isDigit = false ∧ c ≠ '.' := by
  intro c hc
  cases h with
  | absent => cases hc
  | @present letter sign ds negative hletter hsign hds =>
    obtain rfl : letter = c := Option.some.inj hc
    rcases hletter with rfl | rfl
    · decide
    · decide

theorem splitFraction_of_ne_point {cs : List Char} (h : ∀ c ∈ cs.head?, c ≠ '.') :
    splitFraction cs = ([], cs) := by
  unfold splitFraction
  split
  · exact absurd rfl (h '.' rfl)
  · rfl

/-- A numeral is read as its digits, with the places behind the point taken off the exponent. -/
theorem readDecimal_of_significand {cs es whole fraction : List Char} {e : Int}
    (hcs : Significand cs whole fraction) (hes : Exponent es e) :
    readDecimal (cs ++ es) = some ⟨digitsValue (whole ++ fraction), e - fraction.length⟩ := by
  have hread := readExponent_eq_some_iff.mpr hes
  have hdigit : ∀ c ∈ es.head?, c.isDigit = false := fun c hc => (hes.head c hc).1
  have hpoint : ∀ ds : List Char, ∀ c ∈ ('.' :: ds).head?, c.isDigit = false := by simp
  unfold readDecimal
  dsimp only
  cases hcs with
  | whole hwhole =>
    obtain ⟨htake, hdrop⟩ := takeWhile_dropWhile_append hwhole.2 hdigit
    rw [htake, hdrop, splitFraction_of_ne_point fun c hc => (hes.head c hc).2]
    simp [hwhole.1, hread]
  | @point _ _ hwhole hfraction =>
    have htext : whole ++ '.' :: fraction ++ es = whole ++ '.' :: (fraction ++ es) := by simp
    obtain ⟨htake, hdrop⟩ := takeWhile_dropWhile_append hwhole.2 (hpoint (fraction ++ es))
    obtain ⟨hinner, hrest⟩ := takeWhile_dropWhile_append hfraction hdigit
    rw [htext, htake, hdrop, splitFraction, hinner, hrest]
    simp [hwhole.1, hread]
  | fraction hfraction =>
    obtain ⟨htake, hdrop⟩ := @takeWhile_dropWhile_append Char.isDigit [] _ (List.forall_mem_nil _)
      (hpoint (fraction ++ es))
    obtain ⟨hinner, hrest⟩ := takeWhile_dropWhile_append hfraction.2 hdigit
    rw [List.nil_append] at htake hdrop
    rw [List.cons_append, htake, hdrop, splitFraction, hinner, hrest]
    simp [hfraction.1, hread]

/-- What is read as a decimal is a numeral. -/
theorem exists_significand {text : List Char} {d : Decimal} (h : readDecimal text = some d) :
    ∃ cs es whole fraction e, text = cs ++ es ∧ Significand cs whole fraction ∧ Exponent es e ∧
      d = ⟨digitsValue (whole ++ fraction), e - fraction.length⟩ := by
  have htext := List.takeWhile_append_dropWhile (p := Char.isDigit) (l := text)
  have hdigits : ∀ c ∈ text.takeWhile Char.isDigit, c.isDigit = true :=
    fun c hc => List.mem_takeWhile_imp hc
  unfold readDecimal at h
  dsimp only at h
  generalize text.takeWhile Char.isDigit = whole at htext hdigits h
  generalize text.dropWhile Char.isDigit = rest at htext h
  unfold splitFraction at h
  split at h
  · rename_i after
    have hafter := List.takeWhile_append_dropWhile (p := Char.isDigit) (l := after)
    have hfraction : ∀ c ∈ after.takeWhile Char.isDigit, c.isDigit = true :=
      fun c hc => List.mem_takeWhile_imp hc
    generalize after.takeWhile Char.isDigit = fraction at hafter hfraction h
    generalize after.dropWhile Char.isDigit = es at hafter h
    dsimp only at h
    split at h
    · cases h
    · rename_i hsome
      obtain ⟨e, he, rfl⟩ := Option.map_eq_some_iff.mp h
      have hes := readExponent_eq_some_iff.mp he
      cases hwhole : whole with
      | nil =>
        have hne : fraction ≠ [] := by simpa [hwhole] using hsome
        refine ⟨'.' :: fraction, es, [], fraction, e, ?_, .fraction ⟨hne, hfraction⟩, hes, rfl⟩
        rw [← htext, hwhole, ← hafter]
        rfl
      | cons c cs =>
        have hne : whole ≠ [] := by simp [hwhole]
        refine ⟨whole ++ '.' :: fraction, es, whole, fraction, e, ?_,
          .point ⟨hne, hdigits⟩ hfraction, hes, by rw [hwhole]⟩
        rw [← htext, ← hafter]
        simp
  · dsimp only at h
    split at h
    · cases h
    · rename_i hsome
      obtain ⟨e, he, rfl⟩ := Option.map_eq_some_iff.mp h
      have hne : whole ≠ [] := by simpa using hsome
      exact ⟨whole, rest, whole, [], e, htext.symm, .whole ⟨hne, hdigits⟩,
        readExponent_eq_some_iff.mp he, by simp⟩

/-! ## Words -/

/-- Lowering makes no other character an ASCII letter than a capital of ASCII. -/
theorem toNat_lt_of_toLower {c : Char} (h : c.toLower.toNat < 0x80) : c.toNat < 0x80 := by
  unfold Char.toLower at h
  split at h
  · rename_i hc
    have hle : c.toNat ≤ 90 := hc.2
    omega
  · exact h

/-- The ASCII texts that pass for a word are the word in any capitals. -/
theorem spells_ascii {cs word : List Char} (hcs : ∀ c ∈ cs, c.toNat < 0x80) :
    spells cs word = true ↔ cs.map Char.toLower = word := by
  rw [spells_iff]
  induction cs generalizing word with
  | nil => cases word <;> simp
  | cons c cs ih =>
    have hc : c.toNat < 0x80 := hcs c List.mem_cons_self
    cases word with
    | nil => simp
    | cons l word =>
      rw [List.forall₂_cons, ih fun d hd => hcs d (List.mem_cons_of_mem _ hd), List.map_cons,
        List.cons.injEq]
      refine and_congr_left' ⟨?_, .inl⟩
      rintro (h | ⟨-, rfl | rfl⟩)
      · exact h
      · exact absurd hc (by decide)
      · exact absurd hc (by decide)

theorem ascii_of_map_toLower {cs word : List Char} (h : cs.map Char.toLower = word)
    (hword : ∀ l ∈ word, l.toNat < 0x80) : ∀ c ∈ cs, c.toNat < 0x80 := by
  intro c hc
  apply toNat_lt_of_toLower
  apply hword
  rw [← h]
  exact List.mem_map_of_mem hc

/-- A word begins with a letter, so with no sign, digit or point. -/
theorem word_head {cs word : List Char} {l : Char} (h : cs.map Char.toLower = l :: word)
    (hl : l = 'i' ∨ l = 'n') :
    ∃ c rest, cs = c :: rest ∧ c.isDigit = false ∧ c ≠ '.' ∧ c ≠ '+' ∧ c ≠ '-' := by
  obtain ⟨c, rest, rfl, hc, -⟩ := List.map_eq_cons_iff.mp h
  have hne (d : Char) (hd : d.toLower = d) (hnot : d ≠ 'i' ∧ d ≠ 'n') : c ≠ d := by
    rintro rfl
    rw [hd] at hc
    rcases hl with rfl | rfl
    · exact hnot.1 hc
    · exact hnot.2 hc
  refine ⟨c, rest, rfl, ?_, hne '.' (by decide) (by decide), hne '+' (by decide) (by decide),
    hne '-' (by decide) (by decide)⟩
  by_contra hdigit
  have hdigit : c.isDigit = true := Bool.eq_true_of_not_eq_false hdigit
  refine hne c (toLower_of_isDigit hdigit) ?_ rfl
  constructor
  · rintro rfl
    cases hdigit
  · rintro rfl
    cases hdigit

/-! ## All texts -/

/-- What is read as a number is one by the grammar. -/
theorem numberText_of_readNumber {s : String} {x : Float} (h : readNumber s = .number x) :
    NumberText s.toList x := by
  obtain ⟨sign, hsign, htext⟩ := signed_splitSign s.toList
  unfold readNumber at h
  generalize splitSign s.toList = split at hsign htext h
  obtain ⟨negative, text⟩ := split
  rw [htext]
  dsimp only at h ⊢
  cases hdecimal : readDecimal text with
  | some d =>
    obtain ⟨cs, es, whole, fraction, e, rfl, hcs, hes, rfl⟩ := exists_significand hdecimal
    rw [hdecimal] at h
    obtain rfl := Reading.number.inj h
    exact .numeral hsign hcs hes
  | none =>
    simp only [hdecimal] at h
    split at h
    · cases h
    · rename_i hword
      split at h
      · cases h
      · rename_i hascii
        have hascii : ∀ c ∈ text, c.toNat < 0x80 := by simpa using hascii
        simp only [Bool.and_eq_true, Bool.not_eq_true', not_and_or, Bool.not_eq_false,
          Bool.or_eq_true, spells_ascii hascii] at hword
        split at h
        · rename_i hinfinity
          obtain rfl := Reading.number.inj h
          rw [Bool.or_eq_true, spells_ascii hascii, spells_ascii hascii] at hinfinity
          exact .infinity hsign (by simpa [infinityWords] using hinfinity)
        · rename_i hinfinity
          obtain rfl := Reading.number.inj h
          rw [Bool.or_eq_true, spells_ascii hascii, spells_ascii hascii] at hinfinity
          exact .notANumber hsign (hword.resolve_left hinfinity)

theorem Significand.ne_sign {cs whole fraction : List Char} (h : Significand cs whole fraction)
    (es : List Char) : ∀ c ∈ (cs ++ es).head?, c ≠ '+' ∧ c ≠ '-' := by
  intro c hc
  cases h with
  | whole hwhole =>
    rw [List.head?_append_of_ne_nil _ hwhole.1] at hc
    exact hwhole.ne_sign c hc
  | point hwhole hfraction =>
    rw [List.append_assoc, List.head?_append_of_ne_nil _ hwhole.1] at hc
    exact hwhole.ne_sign c hc
  | fraction hfraction =>
    obtain rfl : '.' = c := Option.some.inj hc
    decide

/-- A word in any capitals is read by comparing it with the words. -/
theorem readNumber_of_word {s : String} {sign cs word : List Char} {l : Char} {negative : Bool}
    (htext : s.toList = sign ++ cs) (hsign : Signed sign negative)
    (hword : cs.map Char.toLower = l :: word) (hl : l = 'i' ∨ l = 'n')
    (hascii : ∀ c ∈ cs, c.toNat < 0x80) :
    readNumber s =
      if cs.map Char.toLower ∈ infinityWords then .number (ofMagnitude negative infinite)
      else if cs.map Char.toLower = nanWord then .number notANumber else .noNumber := by
  obtain ⟨c, rest, hcs, hdigit, hpoint, hplus, hminus⟩ := word_head hword hl
  have hfirst : ∀ d ∈ cs.head?, d ≠ '+' ∧ d ≠ '-' := by
    intro d hd
    rw [hcs] at hd
    obtain rfl : c = d := Option.some.inj hd
    exact ⟨hplus, hminus⟩
  have hdecimal : readDecimal cs = none := by
    rw [hcs]
    exact readDecimal_of_letter hdigit hpoint
  have hbeyond : (cs.any fun c => decide (0x80 ≤ c.toNat)) = false := by simpa using hascii
  have hinfinity : (spells cs ['i', 'n', 'f'] ||
      spells cs ['i', 'n', 'f', 'i', 'n', 'i', 't', 'y']) =
        decide (cs.map Char.toLower ∈ infinityWords) := by
    rw [Bool.eq_iff_iff]
    simp [spells_ascii hascii, infinityWords]
  have hnan : spells cs ['n', 'a', 'n'] = decide (cs.map Char.toLower = nanWord) := by
    rw [Bool.eq_iff_iff, decide_eq_true_iff]
    exact spells_ascii hascii
  unfold readNumber
  rw [htext, hsign.splitSign hfirst]
  dsimp only
  rw [hdecimal, hinfinity, hnan, hbeyond]
  by_cases hi : cs.map Char.toLower ∈ infinityWords
  · simp [hi]
  · by_cases hn : cs.map Char.toLower = nanWord <;> simp [hi, hn]

theorem ascii_words : ∀ word ∈ nanWord :: infinityWords, ∀ l ∈ word, l.toNat < 0x80 := by
  simp [nanWord, infinityWords]

/-- A text of the grammar is read as its number. -/
theorem readNumber_of_numberText {s : String} {x : Float} (h : NumberText s.toList x) :
    readNumber s = .number x := by
  generalize htext : s.toList = text at h
  cases h with
  | numeral hsign hcs hes =>
    unfold readNumber
    rw [htext, hsign.splitSign (hcs.ne_sign _)]
    dsimp only
    rw [readDecimal_of_significand hcs hes]
  | @infinity sign cs negative hsign hword =>
    have hascii := ascii_of_map_toLower rfl (ascii_words _ (List.mem_cons_of_mem _ hword))
    obtain ⟨word, hcs⟩ : ∃ word, cs.map Char.toLower = 'i' :: word := by
      simp only [infinityWords, List.mem_cons, List.not_mem_nil, or_false] at hword
      rcases hword with h | h <;> exact ⟨_, h⟩
    rw [readNumber_of_word htext hsign hcs (.inl rfl) hascii, if_pos hword]
  | @notANumber sign cs negative hsign hword =>
    have hascii := ascii_of_map_toLower hword (ascii_words _ List.mem_cons_self)
    have hnot : nanWord ∉ infinityWords := by decide
    rw [readNumber_of_word htext hsign hword (.inr rfl) hascii, hword, if_neg hnot, if_pos rfl]

/-- **The texts that are read as numbers are those of the grammar.** -/
theorem readNumber_eq_number_iff {s : String} {x : Float} :
    readNumber s = .number x ↔ NumberText s.toList x :=
  ⟨numberText_of_readNumber, readNumber_of_numberText⟩

/-! ## Literals -/

theorem numberText_ofNumeral {cs whole fraction : List Char} (h : Significand cs whole fraction) :
    NumberText cs (ofNumeral cs) := by
  have hread := readDecimal_of_significand h .absent
  rw [List.append_nil] at hread
  have hnumber : NumberText ([] ++ (cs ++ [])) _ := .numeral .absent h .absent
  rw [List.nil_append, List.append_nil] at hnumber
  unfold ofNumeral
  rw [hread]
  exact hnumber

/-- The lexeme of a number in a script is a text that is this number. -/
theorem numberText_of_matches {integers : Bool} {l : List Char} {x : Float}
    (h : Scan.Matches integers l (.number x)) : NumberText l x := by
  cases h with
  | @decimal whole fraction hwhole hfraction hdigits =>
    refine numberText_ofNumeral (.point ⟨hwhole, ?_⟩ ?_)
    · exact fun c hc => hdigits c (List.mem_append_left _ hc)
    · exact fun c hc => hdigits c (List.mem_append_right _ hc)
  | integer _ hne hdigits => exact numberText_ofNumeral (.whole ⟨hne, hdigits⟩)

/-- What is no number by the grammar is read as none, unless an `i` in it has the wrong dot. -/
theorem readNumber_eq_noNumber_iff {s : String} :
    readNumber s = .noNumber ↔ (∀ x, ¬ NumberText s.toList x) ∧ ¬ Misspelt s := by
  have hnumber (x : Float) : readNumber s = .number x ↔ NumberText s.toList x :=
    readNumber_eq_number_iff
  rw [← readNumber_eq_unreadable_iff]
  simp only [← hnumber]
  cases readNumber s <;> simp

/-- **The texts that are numbers.**  A text is read as a number exactly if it is one by the grammar,
and as none exactly if it is not, but for words with a wrong `i`.  The lexeme of a number in any
script is read as the very number of the token. -/
theorem readNumber_texts :
    (∀ s x, readNumber s = .number x ↔ NumberText s.toList x) ∧
    (∀ s, readNumber s = .noNumber ↔ (∀ x, ¬ NumberText s.toList x) ∧ ¬ Misspelt s) ∧
    ∀ (script : Script), ∀ t ∈ script.scan, ∀ x, t.kind = .number x →
      readNumber t.lexeme = .number x := by
  refine ⟨fun _ _ => readNumber_eq_number_iff, fun _ => readNumber_eq_noNumber_iff, ?_⟩
  intro script t ht x hx
  apply readNumber_of_numberText
  refine Script.forall_mem_scan (P := fun k lexeme => k = .number x → NumberText lexeme x) ?_ ht hx
  intro c rest hkind
  apply @numberText_of_matches script.integers
  rw [← hkind]
  apply Scan.matches_munch
  rw [hkind]
  rfl

/-- A number with zeros that say nothing. -/
def zerosSample : Script := { text := "007.50", integers := false }

theorem readNumber_texts_zerosSample :
    (∃ t ∈ zerosSample.scan, t.lexeme = "007.50" ∧
      t.kind = .number (ofNumeral ['0', '0', '7', '.', '5', '0']) ∧
      readNumber t.lexeme = .number (ofNumeral ['0', '0', '7', '.', '5', '0'])) ∧
    readNumber "-iNf" = .number (ofMagnitude true infinite) := by
  have hpieces := @Scan.pieces_of_splitGap false ['0', '0', '7', '.', '5', '0'] []
    ['0', '7', '.', '5', '0'] '0' rfl
  have hmunch : Scan.munch false '0' ['0', '7', '.', '5', '0'] =
      ⟨.number (ofNumeral ['0', '0', '7', '.', '5', '0']),
        ['0', '0', '7', '.', '5', '0'], []⟩ := rfl
  have hscan : ∃ t ∈ zerosSample.scan, t.lexeme = "007.50" ∧
      t.kind = .number (ofNumeral ['0', '0', '7', '.', '5', '0']) := by
    refine ⟨⟨.number (ofNumeral ['0', '0', '7', '.', '5', '0']), "007.50",
      ⟨none, {}, ⟨1, 7, 6⟩⟩⟩, ?_, rfl, rfl⟩
    unfold Script.scan
    show _ ∈ zerosSample.place {} (Scan.pieces false ['0', '0', '7', '.', '5', '0']).1
    rw [hpieces, hmunch]
    exact List.mem_cons_self
  obtain ⟨t, ht, hlexeme, hkind⟩ := hscan
  refine ⟨⟨t, ht, hlexeme, hkind, readNumber_texts.2.2 zerosSample t ht _ hkind⟩, ?_⟩
  exact (readNumber_texts.1 _ _).mpr (.infinity .minus (by decide))

end DialogueScript.Number
