import DialogueScript.Proofs.NumberText
import DialogueScript.Settings.Layer

/-!
# What an option accepts

Every option has its choices, and every choice has words.  An option is given a choice by one of its
words, with blanks around it and letters of either case.  Those with a set of choices are also given
one by a member of that set, and the one with two truth values by a truth value or by zero or one.

* `Text.Spells`, `Text.plainWord_eq_iff` — a text that spells a word;
* `Chosen` — a choice of some option, with its words;
* `Key.Accepts` — what an option accepts, and for which choice;
* `Key.accepts_iff` — it is what is read for the option;
* `Settings.put_eq_ok_iff` — what is accepted changes this option and no other, and nothing else is
  put.
-/

namespace DialogueScript

namespace Text

/-- The word between blanks, with letters of either case. -/
def Spells (s w : String) : Prop :=
  ∃ before core after, s.toList = before ++ core ++ after ∧
    (∀ c ∈ before ++ after, isBlank c = true) ∧ core.map Char.toLower = w.toList

theorem toLower_of_not_upper {c : Char} (h : c.toNat < 65 ∨ 90 < c.toNat) : c.toLower = c := by
  unfold Char.toLower
  refine dif_neg fun hupper => ?_
  have hlow : 65 ≤ c.toNat := hupper.1
  have hhigh : c.toNat ≤ 90 := hupper.2
  omega

theorem toLower_of_isBlank {c : Char} (h : isBlank c = true) : c.toLower = c := by
  unfold isBlank at h
  simp only [Bool.or_eq_true, decide_eq_true_eq, beq_iff_eq] at h
  exact toLower_of_not_upper (by omega)

theorem isBlank_of_isAlphanum {c : Char} (h : c.isAlphanum = true) : isBlank c = false := by
  by_contra hblank
  rw [Bool.not_eq_false] at hblank
  unfold isBlank at hblank
  simp only [Bool.or_eq_true, decide_eq_true_eq, beq_iff_eq] at hblank
  unfold Char.isAlphanum Char.isAlpha Char.isUpper Char.isLower Char.isDigit at h
  simp only [Bool.or_eq_true, Bool.and_eq_true, decide_eq_true_eq, UInt32.le_iff_toNat_le] at h
  have hval : c.toNat = c.val.toNat := rfl
  have h' : (65 ≤ c.val.toNat ∧ c.val.toNat ≤ 90 ∨ 97 ≤ c.val.toNat ∧ c.val.toNat ≤ 122) ∨
    48 ≤ c.val.toNat ∧ c.val.toNat ≤ 57 := h
  omega

theorem strip_blank {cs : List Char} (h : ∀ c ∈ cs, isBlank c = true) : strip cs = [] := by
  unfold strip
  rw [List.dropWhile_eq_nil_iff.mpr h]
  rfl

/-- The blanks around a text do not matter. -/
theorem strip_append {before core after : List Char}
    (hblank : ∀ c ∈ before ++ after, isBlank c = true) (hcore : ∀ c ∈ core, isBlank c = false) :
    strip (before ++ core ++ after) = core := by
  have hbefore : ∀ c ∈ before, isBlank c = true := fun c hc => hblank c (List.mem_append_left _ hc)
  have hafter : ∀ c ∈ after.reverse, isBlank c = true := fun c hc =>
    hblank c (List.mem_append_right _ (List.mem_reverse.mp hc))
  cases core with
  | nil =>
    rw [List.append_nil]
    exact strip_blank hblank
  | cons first rest =>
    have hfirst : ((first :: rest) ++ after).dropWhile isBlank = (first :: rest) ++ after :=
      List.dropWhile_cons_of_neg (by simp [hcore first List.mem_cons_self])
    have hlast : (first :: rest).reverse.dropWhile isBlank = (first :: rest).reverse := by
      refine List.dropWhile_eq_self_iff.mpr fun hpos => ?_
      have hmem := List.mem_reverse.mp (List.getElem_mem hpos)
      rw [hcore _ hmem]
      exact Bool.false_ne_true
    unfold strip
    rw [List.append_assoc, List.dropWhile_append_of_pos hbefore, hfirst, List.reverse_append,
      List.dropWhile_append_of_pos hafter, hlast, List.reverse_reverse]

theorem exists_strip (cs : List Char) : ∃ before after, cs = before ++ strip cs ++ after ∧
    ∀ c ∈ before ++ after, isBlank c = true := by
  refine ⟨cs.takeWhile isBlank, ((cs.dropWhile isBlank).reverse.takeWhile isBlank).reverse, ?_, ?_⟩
  · unfold strip
    rw [List.append_assoc, ← List.reverse_append, List.takeWhile_append_dropWhile,
      List.reverse_reverse, List.takeWhile_append_dropWhile]
  · intro c hc
    rcases List.mem_append.mp hc with hc | hc
    · exact List.mem_takeWhile_imp hc
    · exact List.mem_takeWhile_imp (List.mem_reverse.mp hc)

/-- A text is taken for a word exactly if it spells the word. -/
theorem plainWord_eq_iff {s w : String} (hw : ∀ c ∈ w.toList, isBlank c = false) :
    plainWord s = w ↔ Spells s w := by
  unfold plainWord
  constructor
  · intro h
    obtain ⟨before, after, hs, hblank⟩ := exists_strip s.toList
    refine ⟨before, strip s.toList, after, hs, hblank, ?_⟩
    rw [← h, String.toList_ofList]
  · rintro ⟨before, core, after, hs, hblank, hcore⟩
    have hnot : ∀ c ∈ core, isBlank c = false := by
      intro c hc
      by_contra hc'
      rw [Bool.not_eq_false] at hc'
      have hmem : c.toLower ∈ w.toList := hcore ▸ List.mem_map_of_mem hc
      rw [toLower_of_isBlank hc'] at hmem
      rw [hw c hmem] at hc'
      cases hc'
    rw [hs, strip_append hblank hnot, hcore, String.ofList_toList]

end Text

/-- A choice of some option. -/
inductive Chosen where
  | scoping (s : Scoping)
  | storage (s : Storage)
  | policy (p : ErrorPolicy)
  | integers (b : Bool)
  deriving DecidableEq

namespace Chosen

/-- The option that it is a choice of. -/
def key : Chosen → Key
  | scoping _ => .scoping
  | storage _ => .storage
  | policy _ => .policy
  | integers _ => .integers

/-- The words for it. -/
def words : Chosen → List String
  | scoping s => [s.word]
  | storage s => [s.word]
  | policy p => [p.word]
  | integers true => ["1", "true", "yes", "on"]
  | integers false => ["0", "false", "no", "off"]

/-- The choice of an option that a word stands for. -/
def ofWord? : Key → String → Option Chosen
  | .scoping, w => (Scoping.ofWord? w).map scoping
  | .storage, w => (Storage.ofWord? w).map storage
  | .policy, w => (ErrorPolicy.ofWord? w).map policy
  | .integers, w => (boolOfWord? w).map integers

/-- All choices of all options. -/
def all : List Chosen :=
  Scoping.all.map scoping ++ Storage.all.map storage ++ ErrorPolicy.all.map policy ++
    [integers true, integers false]

theorem mem_all (c : Chosen) : c ∈ all := by
  cases c with
  | scoping s => cases s <;> decide
  | storage s => cases s <;> decide
  | policy p => cases p <;> decide
  | integers b => cases b <;> decide

instance decidableForall {P : Chosen → Prop} [DecidablePred P] : Decidable (∀ c, P c) :=
  decidable_of_iff (∀ c ∈ all, P c) ⟨fun h c => h c c.mem_all, fun h c _ => h c⟩

theorem isAlphanum_of_mem_words {c : Chosen} {w : String} (hw : w ∈ c.words) :
    ∀ ch ∈ w.toList, ch.isAlphanum = true := by
  have hall : ∀ c : Chosen, (c.words.all fun w => w.toList.all Char.isAlphanum) = true := by decide
  exact List.all_eq_true.mp (List.all_eq_true.mp (hall c) w hw)

/-- Among words that are found again, a word is found for what has it. -/
theorem find?_word_eq_some_iff {α : Type} {all : List α} {word : α → String}
    (hword : ∀ a, all.find? (fun b => word b == word a) = some a) {w : String} {a : α} :
    all.find? (fun b => word b == w) = some a ↔ w = word a := by
  constructor
  · intro h
    have hfound := List.find?_some h
    exact (beq_iff_eq.mp hfound).symm
  · rintro rfl
    exact hword a

theorem ofWord?_eq_some_iff {k : Key} {w : String} {c : Chosen} :
    ofWord? k w = some c ↔ c.key = k ∧ w ∈ c.words := by
  have hscoping (s : Scoping) : Scoping.ofWord? w = some s ↔ w = s.word :=
    find?_word_eq_some_iff Scoping.ofWord?_word
  have hstorage (s : Storage) : Storage.ofWord? w = some s ↔ w = s.word :=
    find?_word_eq_some_iff Storage.ofWord?_word
  have hpolicy (p : ErrorPolicy) : ErrorPolicy.ofWord? w = some p ↔ w = p.word :=
    find?_word_eq_some_iff ErrorPolicy.ofWord?_word
  have hbool (b : Bool) : boolOfWord? w = some b ↔ w ∈ (integers b).words := by
    unfold boolOfWord?
    simp only [List.contains_iff_mem]
    cases b with
    | true => split <;> simp_all [words]
    | false =>
      split
      · rename_i htrue
        simp only [List.mem_cons, List.not_mem_nil, or_false] at htrue
        rcases htrue with rfl | rfl | rfl | rfl <;> decide
      · split <;> simp_all [words]
  cases k with
  | scoping => cases c <;> simp [ofWord?, key, words, hscoping]
  | storage => cases c <;> simp [ofWord?, key, words, hstorage]
  | policy => cases c <;> simp [ofWord?, key, words, hpolicy]
  | integers => cases c <;> simp [ofWord?, key, hbool]

end Chosen

namespace Settings

/-- What is chosen for an option. -/
def choice (s : Settings) : Key → Chosen
  | .scoping => .scoping s.scoping
  | .storage => .storage s.storage
  | .policy => .policy s.policy
  | .integers => .integers s.integers

/-- Settings with another choice. -/
def choose (s : Settings) : Chosen → Settings
  | .scoping scoping => { s with scoping }
  | .storage storage => { s with storage }
  | .policy policy => { s with policy }
  | .integers integers => { s with integers }

theorem choice_choose (s : Settings) (c : Chosen) (k : Key) :
    (s.choose c).choice k = if c.key = k then c else s.choice k := by
  cases c <;> cases k <;> rfl

/-- Settings are their four choices. -/
theorem ext_choice {s t : Settings} (h : ∀ k, s.choice k = t.choice k) : s = t := by
  have hscoping := h .scoping
  have hstorage := h .storage
  have hpolicy := h .policy
  have hintegers := h .integers
  simp only [choice, Chosen.scoping.injEq, Chosen.storage.injEq, Chosen.policy.injEq,
    Chosen.integers.injEq] at hscoping hstorage hpolicy hintegers
  cases s
  cases t
  simp_all

end Settings

namespace Key

/-- What an option accepts, and what is chosen by it. -/
inductive Accepts : Key → Plain → Chosen → Prop
  | word {c : Chosen} {s w : String} : w ∈ c.words → Text.Spells s w → Accepts c.key (.text s) c
  /-- A member of the option's own set of choices. -/
  | member {c : Chosen} {w : String} (name : String) :
    c.key ≠ .integers → w ∈ c.words → Accepts c.key (.choice c.key.choiceSet name w) c
  | truth (b : Bool) : Accepts .integers (.bool b) (.integers b)
  /-- Zero or one. -/
  | bit (b : Bool) : Accepts .integers (.int b.toNat) (.integers b)
  /-- Data of another kind that is written like one of the words. -/
  | other {c : Chosen} {s w shown : String} {isEmpty : Bool} : w ∈ c.words → Text.Spells s w →
    Accepts c.key (.other s shown true isEmpty) c

/-- The word that is read for an option. -/
def readWord (k : Key) (p : Plain) : String :=
  match k with
  | .integers => Text.plainWord p.word
  | k => k.choiceWord p

/-- A text with a point, a bracket or a sign in it is no word of any choice. -/
theorem not_accepted_of_sign {c : Chosen} {s : String} {ch : Char} (hmem : ch ∈ s.toList)
    (hblank : Text.isBlank ch = false) (hsign : ch.toLower.isAlphanum = false) :
    Text.plainWord s ∉ c.words := by
  intro hw
  have hstrip : ch ∈ Text.strip s.toList := by
    obtain ⟨before, after, hs, hall⟩ := Text.exists_strip s.toList
    rw [hs] at hmem
    simp only [List.mem_append] at hmem hall
    rcases hmem with (h | h) | h
    · exact absurd (hall ch (.inl h)) (by simp [hblank])
    · exact h
    · exact absurd (hall ch (.inr h)) (by simp [hblank])
  have hlower : ch.toLower ∈ (Text.plainWord s).toList := by
    unfold Text.plainWord
    rw [String.toList_ofList]
    exact List.mem_map_of_mem hstrip
  rw [Chosen.isAlphanum_of_mem_words hw _ hlower] at hsign
  cases hsign

/-- In the text of a number with a fraction or an exponent there is a point or a sign. -/
theorem exists_sign_layout (d : Number.Decimal) :
    (∃ ch ∈ d.fractional, ch ∈ ['.', '+', '-']) ∧ ∃ ch ∈ d.scientific, ch ∈ ['.', '+', '-'] := by
  constructor
  · unfold Number.Decimal.fractional
    split
    · rename_i hneg
      refine ⟨'.', ?_, by decide⟩
      obtain ⟨digits, e | e⟩ := d
      · exact absurd hneg (by simp)
      · simp [Number.Decimal.positional]
    · exact ⟨'.', by simp, by decide⟩
  · unfold Number.Decimal.scientific
    dsimp only
    refine ⟨_, List.mem_append_right _ (List.mem_cons_of_mem _ List.mem_cons_self), ?_⟩
    split <;> decide

/-- A number that is given with a fraction is no word: there is a point or a sign in its text, or
it is one of two words that no option has. -/
theorem not_accepted_float {c : Chosen} (x : Float) : Text.plainWord (Number.dump x) ∉ c.words := by
  have hnan : ∀ c : Chosen, Text.plainWord (String.ofList ['n', 'a', 'n']) ∉ c.words := by decide
  have hinf : ∀ c : Chosen, Text.plainWord (String.ofList ['i', 'n', 'f']) ∉ c.words := by decide
  have hsign {cs : List Char} (h : ∃ ch ∈ cs, ch ∈ ['.', '+', '-']) :
      Text.plainWord (String.ofList cs) ∉ c.words := by
    obtain ⟨ch, hmem, hch⟩ := h
    simp only [List.mem_cons, List.not_mem_nil, or_false] at hch
    refine not_accepted_of_sign (by rwa [String.toList_ofList]) ?_ ?_
    · rcases hch with rfl | rfl | rfl <;> rfl
    · rcases hch with rfl | rfl | rfl <;> rfl
  unfold Number.dump Number.write
  dsimp only
  split
  · exact hnan c
  · cases Number.isNegative x with
    | true => exact hsign ⟨'-', List.mem_cons_self, by decide⟩
    | false =>
      split
      · exact hinf c
      · split
        · exact hsign (exists_sign_layout _).1
        · exact hsign (exists_sign_layout _).2

/-- Digits are a word as they are. -/
theorem plainWord_digits {ds : List Char} (hds : ∀ ch ∈ ds, ch.isDigit = true) :
    Text.plainWord (String.ofList ds) = String.ofList ds := by
  have hblank : ∀ ch ∈ (String.ofList ds).toList, Text.isBlank ch = false := by
    intro ch hch
    rw [String.toList_ofList] at hch
    apply Text.isBlank_of_isAlphanum
    simp [Char.isAlphanum, hds ch hch]
  refine (Text.plainWord_eq_iff hblank).mpr ⟨[], ds, [], by simp, by simp, ?_⟩
  rw [String.toList_ofList]
  refine (List.map_congr_left fun ch hch => ?_).trans (List.map_id ds)
  exact Number.toLower_of_isDigit (hds ch hch)

/-- An integer whose text is a word of a choice is zero or one, for the two truth values. -/
theorem eq_bit_of_word {c : Chosen} {n : Int} (hw : Text.plainWord (toString n) ∈ c.words) :
    ∃ b : Bool, n = b.toNat ∧ c = .integers b := by
  cases n with
  | negSucc m =>
    have hmem : '-' ∈ (toString (Int.negSucc m)).toList := by simp [toString, Int.repr]
    exact absurd hw (not_accepted_of_sign hmem rfl rfl)
  | ofNat m =>
    have hdigits : ∀ ch ∈ Nat.toDigits 10 m, ch.isDigit = true := Number.isDigit_of_mem_toDigits
    have htext : toString (Int.ofNat m) = String.ofList (Nat.toDigits 10 m) := by
      simp [toString, Int.repr, Nat.repr]
    rw [htext, plainWord_digits hdigits] at hw
    have hbits : ∀ c : Chosen, ∀ w ∈ c.words, (w.toList.all Char.isDigit) = true →
        ∃ b : Bool, w.toList = Nat.toDigits 10 b.toNat ∧ c = .integers b := by decide
    obtain ⟨b, hb, rfl⟩ := hbits c _ hw (by
      rw [String.toList_ofList]
      exact List.all_eq_true.mpr hdigits)
    rw [String.toList_ofList] at hb
    have hm := congrArg Number.digitsValue hb
    rw [Number.digitsValue_toDigits, Number.digitsValue_toDigits] at hm
    exact ⟨b, congrArg Int.ofNat hm, rfl⟩

/-- The word is the text, unless it is a member of the option's own set of choices. -/
theorem readWord_eq {k : Key} {p : Plain}
    (h : k = .integers ∨ ∀ name w, p ≠ .choice k.choiceSet name w) :
    k.readWord p = Text.plainWord p.word := by
  have hchoice (hp : ∀ name w, p ≠ .choice k.choiceSet name w) :
      k.choiceWord p = Text.plainWord p.word := by
    unfold choiceWord
    split
    · rename_i set name w
      rw [if_neg fun hset : set = k.choiceSet => hp name w (hset ▸ rfl)]
    · rfl
  cases k with
  | integers => rfl
  | _ => exact hchoice (h.resolve_left (by decide))

theorem readWord_member {k : Key} {name w : String} (hk : k ≠ .integers) :
    k.readWord (.choice k.choiceSet name w) = w := by
  cases k with
  | integers => exact absurd rfl hk
  | _ => rfl

/-- What an option accepts is what can be shown and is read as one of its words. -/
theorem accepts_iff {k : Key} {p : Plain} {c : Chosen} :
    k.Accepts p c ↔ p.hasText = true ∧ Chosen.ofWord? k (k.readWord p) = some c := by
  rw [Chosen.ofWord?_eq_some_iff]
  have htext (k : Key) (s : String) : k.readWord (.text s) = Text.plainWord s :=
    readWord_eq (.inr fun _ _ => Plain.noConfusion)
  have hother (k : Key) (s shown : String) (hasText isEmpty : Bool) :
      k.readWord (.other s shown hasText isEmpty) = Text.plainWord s :=
    readWord_eq (.inr fun _ _ => Plain.noConfusion)
  have hblank {w : String} (hw : w ∈ c.words) : ∀ ch ∈ w.toList, Text.isBlank ch = false :=
    fun ch hch => Text.isBlank_of_isAlphanum (Chosen.isAlphanum_of_mem_words hw ch hch)
  constructor
  · rintro (⟨hw, hs⟩ | ⟨name, hkey, hw⟩ | b | b | ⟨hw, hs⟩)
    · refine ⟨rfl, rfl, ?_⟩
      rwa [htext, (Text.plainWord_eq_iff (hblank hw)).mpr hs]
    · refine ⟨rfl, rfl, ?_⟩
      rwa [readWord_member hkey]
    · cases b <;> exact ⟨rfl, rfl, by decide⟩
    · cases b <;> exact ⟨rfl, rfl, by decide⟩
    · refine ⟨rfl, rfl, ?_⟩
      rwa [hother, (Text.plainWord_eq_iff (hblank hw)).mpr hs]
  · rintro ⟨hhas, rfl, hw⟩
    have hword (hset : c.key = .integers ∨ ∀ name w, p ≠ .choice c.key.choiceSet name w) :
        Text.plainWord p.word ∈ c.words := by
      rwa [← readWord_eq hset]
    cases p with
    | null =>
      have hnone : ∀ c : Chosen, Text.plainWord Plain.null.word ∉ c.words := by decide
      exact absurd (hword (by simp)) (hnone c)
    | bool b =>
      have hbool : ∀ b, ∀ c : Chosen, Text.plainWord (Plain.bool b).word ∈ c.words →
        c = .integers b := by decide
      obtain rfl := hbool b c (hword (by simp))
      exact .truth b
    | int n =>
      obtain ⟨b, rfl, rfl⟩ := eq_bit_of_word (hword (by simp))
      exact .bit b
    | float x => exact absurd (hword (by simp)) (not_accepted_float x)
    | text s => exact .word hw ((Text.plainWord_eq_iff (hblank hw)).mp (htext _ s).symm)
    | list items =>
      have hmem : '[' ∈ (Plain.list items).word.toList := by simp [Plain.word, Plain.dump]
      exact absurd (hword (by simp)) (not_accepted_of_sign hmem rfl rfl)
    | map entries =>
      have hmem : '\x7b' ∈ (Plain.map entries).word.toList := by simp [Plain.word, Plain.dump]
      exact absurd (hword (by simp)) (not_accepted_of_sign hmem rfl rfl)
    | choice set name w =>
      have hmem : '.' ∈ (Plain.choice set name w).word.toList := by simp [Plain.word]
      by_cases hkey : c.key = .integers
      · exact absurd (hword (.inl hkey)) (not_accepted_of_sign hmem rfl rfl)
      · by_cases hset : set = c.key.choiceSet
        · subst hset
          rw [readWord_member hkey] at hw
          exact .member name hkey hw
        · refine absurd (hword (.inr ?_)) (not_accepted_of_sign hmem rfl rfl)
          rintro name' w' heq
          exact hset (Plain.choice.inj heq).1
    | other s shown hasText isEmpty =>
      obtain rfl : hasText = true := hhas
      exact .other hw ((Text.plainWord_eq_iff (hblank hw)).mp (hother _ _ _ _ _).symm)

theorem Accepts.key_eq {k : Key} {p : Plain} {c : Chosen} (h : k.Accepts p c) : c.key = k :=
  (Chosen.ofWord?_eq_some_iff.mp (accepts_iff.mp h).2).1

/-- One thing is accepted for one choice only. -/
theorem Accepts.unique {k : Key} {p : Plain} {c d : Chosen} (hc : k.Accepts p c)
    (hd : k.Accepts p d) : c = d := by
  have h := (accepts_iff.mp hc).2
  rw [(accepts_iff.mp hd).2] at h
  exact (Option.some.inj h).symm

end Key

/-- A truth value is read like its word. -/
theorem boolOfPlain?_eq (p : Plain) : boolOfPlain? p = boolOfWord? (Text.plainWord p.word) := by
  cases p with
  | bool b => cases b <;> decide
  | _ => rfl

/-- **An option is given what it accepts**, and no other option changes; what it does not accept is
not put. -/
theorem Settings.put_eq_ok_iff {s r : Settings} {k : Key} {p : Plain} :
    s.put k p = .ok r ↔ ∃ c, k.Accepts p c ∧ r = s.choose c := by
  simp only [Key.accepts_iff]
  unfold put
  cases hp : p.hasText with
  | false => simp
  | true =>
    cases k with
    | integers =>
      dsimp only [Key.readWord, Chosen.ofWord?]
      rw [← boolOfPlain?_eq]
      split
      · rename_i b hb
        simp [hb, choose, eq_comm]
      · rename_i hnone
        simp [hnone]
    | _ =>
      -- an option with a set of choices
      dsimp only [Key.readWord, Chosen.ofWord?]
      split
      · rename_i c hc
        simp [hc, choose, eq_comm]
      · rename_i hnone
        simp [hnone]

end DialogueScript
