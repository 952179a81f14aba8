import Mathlib.Data.List.Forall2
import DialogueScript.Run.Arithmetic

/-!
# When operations stop

* `Number.Misspelt` — the texts that pass for infinity, and only because a dotless or a dotted
  capital `i` passes for the letter; `Number.readNumber_eq_unreadable_iff` — exactly these pass for
  a number and cannot be read as one;
* `Operator.Reads`, `Operator.Stumbles` — an operator reads its operands as numbers, and cannot read
  one of them;
* `Operator.apply_eq_crash_iff` — an operation crashes exactly when it stumbles;
* `Operator.apply_error_cases` — otherwise it stops with a failure at its own span.
-/

namespace DialogueScript

namespace Number

/-- The character is the letter `l` in either case, or an `i` with the wrong dot for an `i`. -/
def PassesFor (c l : Char) : Prop := c.toLower = l ∨ l = 'i' ∧ (c = '\u0130' ∨ c = '\u0131')

/-- The text is a word for infinity after an optional sign, and one of its letters is an `i` with
the wrong dot. -/
def Misspelt (s : String) : Prop :=
  ∃ sign cs word : List Char, s.toList = sign ++ cs ∧ sign ∈ [[], ['+'], ['-']] ∧
    word ∈ [['i', 'n', 'f'], ['i', 'n', 'f', 'i', 'n', 'i', 't', 'y']] ∧
    List.Forall₂ PassesFor cs word ∧ ('\u0130' ∈ cs ∨ '\u0131' ∈ cs)

theorem passesFor_iff {c l : Char} : passesFor c l = true ↔ PassesFor c l := by
  simp [passesFor, PassesFor]

theorem spells_iff {cs word : List Char} :
    spells cs word = true ↔ List.Forall₂ PassesFor cs word := by
  induction cs generalizing word with
  | nil => cases word <;> simp [spells]
  | cons c cs ih =>
    cases word with
    | nil => simp [spells]
    | cons l word =>
      rw [List.forall₂_cons, ← ih]
      simp only [spells, List.length_cons, List.zip_cons_cons, List.all_cons, passesFor_iff,
        Bool.and_eq_true, beq_iff_eq, Nat.add_right_cancel_iff]
      exact and_left_comm

/-- Only an `i` with the wrong dot passes for a letter without being one. -/
theorem PassesFor.cases {c l : Char} (h : PassesFor c l) :
    c = l ∨ (c.toNat + 32 = l.toNat ∧ c.toNat ≤ 90) ∨ l = 'i' ∧ (c = '\u0130' ∨ c = '\u0131') := by
  rcases h with h | h
  · unfold Char.toLower at h
    split at h
    · rename_i hc
      subst h
      refine .inr (.inl ⟨?_, hc.2⟩)
      have h32 : c.val.toNat + 32 < 2 ^ 32 := by
        have : c.val.toNat ≤ 90 := hc.2
        omega
      exact (Nat.mod_eq_of_lt h32).symm
    · exact .inl h
  · exact .inr (.inr h)

theorem PassesFor.eq_i {c : Char} (h : PassesFor c 'i') :
    c = 'i' ∨ c = 'I' ∨ c = '\u0130' ∨ c = '\u0131' := by
  rcases h.cases with h | ⟨h, -⟩ | ⟨-, h⟩
  · exact .inl h
  · right
    left
    have hi : c.toNat + 32 = 105 := h
    have hc : c.toNat = 'I'.toNat := by
      show c.toNat = 73
      omega
    exact Char.toNat_inj.mp hc
  · exact .inr (.inr h)

/-- The characters beyond ASCII of a word are its `i`s with the wrong dot. -/
theorem spelt_beyond_ascii {cs word : List Char} (h : List.Forall₂ PassesFor cs word)
    (hword : ∀ l ∈ word, l.toNat < 0x80) {c : Char} (hc : c ∈ cs) (hbeyond : 0x80 ≤ c.toNat) :
    'i' ∈ word ∧ (c = '\u0130' ∨ c = '\u0131') := by
  induction h with
  | nil => cases hc
  | @cons d l cs word hd hrest ih =>
    have hl : l.toNat < 0x80 := hword l (by simp)
    rcases List.mem_cons.mp hc with rfl | hc
    · rcases hd.cases with rfl | ⟨-, h⟩ | ⟨rfl, h⟩
      · omega
      · omega
      · exact ⟨by simp, h⟩
    · obtain ⟨hi, h⟩ := ih (fun l hl => hword l (by simp [hl])) hc
      exact ⟨List.mem_cons_of_mem _ hi, h⟩

theorem splitSign_append (cs : List Char) :
    ∃ sign ∈ [[], ['+'], ['-']], cs = sign ++ (splitSign cs).2 := by
  unfold splitSign
  split
  · exact ⟨['+'], by simp, rfl⟩
  · exact ⟨['-'], by simp, rfl⟩
  · exact ⟨[], by simp, rfl⟩

theorem splitSign_of_append {sign cs : List Char} {c : Char}
    (hsign : sign ∈ [[], ['+'], ['-']]) (hplus : c ≠ '+') (hminus : c ≠ '-') :
    (splitSign (sign ++ c :: cs)).2 = c :: cs := by
  simp only [List.mem_cons, List.not_mem_nil, or_false] at hsign
  rcases hsign with rfl | rfl | rfl
  · unfold splitSign
    split
    · rename_i h
      exact absurd (List.cons_eq_cons.mp h).1 hplus
    · rename_i h
      exact absurd (List.cons_eq_cons.mp h).1 hminus
    · rfl
  · rfl
  · rfl

theorem readDecimal_of_letter {c : Char} {cs : List Char} (hdigit : c.isDigit = false)
    (hpoint : c ≠ '.') : readDecimal (c :: cs) = none := by
  have hsplit : splitFraction (c :: cs) = ([], c :: cs) := by
    unfold splitFraction
    split
    · rename_i h
      exact absurd (List.cons_eq_cons.mp h).1 hpoint
    · rfl
  simp [readDecimal, hdigit, hsplit]

/-- A text that cannot be read passes for some word. -/
theorem exists_spelt_of_unreadable {s : String} (h : readNumber s = .unreadable) :
    ∃ sign cs word : List Char, s.toList = sign ++ cs ∧ sign ∈ [[], ['+'], ['-']] ∧
      word ∈ [['i', 'n', 'f'], ['i', 'n', 'f', 'i', 'n', 'i', 't', 'y'], ['n', 'a', 'n']] ∧
      List.Forall₂ PassesFor cs word ∧ ∃ c ∈ cs, 0x80 ≤ c.toNat := by
  obtain ⟨sign, hsign, htext⟩ := splitSign_append s.toList
  unfold readNumber at h
  rcases hs : splitSign s.toList with ⟨negative, cs⟩
  rw [hs] at htext
  simp only [hs] at h
  split at h
  · cases h
  · split at h
    · cases h
    · rename_i hword
      split at h
      · rename_i hbeyond
        have hbeyond : ∃ c ∈ cs, 0x80 ≤ c.toNat := by simpa using hbeyond
        simp only [Bool.and_eq_true, Bool.not_eq_true', Bool.or_eq_false_iff, not_and_or,
          Bool.not_eq_false, spells_iff] at hword
        rcases hword with (hw | hw) | hw
        · exact ⟨sign, cs, _, htext, hsign, by simp, hw, hbeyond⟩
        · exact ⟨sign, cs, _, htext, hsign, by simp, hw, hbeyond⟩
        · exact ⟨sign, cs, _, htext, hsign, by simp, hw, hbeyond⟩
      · split at h <;> cases h

theorem misspelt_of_unreadable {s : String} (h : readNumber s = .unreadable) : Misspelt s := by
  obtain ⟨sign, cs, word, htext, hsign, hword, hspelt, c, hc, hbeyond⟩ :=
    exists_spelt_of_unreadable h
  have hascii : ∀ word ∈ [['i', 'n', 'f'], ['i', 'n', 'f', 'i', 'n', 'i', 't', 'y'],
      ['n', 'a', 'n']], ∀ l ∈ word, l.toNat < 0x80 := by simp
  obtain ⟨hi, hdot⟩ := spelt_beyond_ascii hspelt (hascii word hword) hc hbeyond
  refine ⟨sign, cs, word, htext, hsign, ?_, hspelt, ?_⟩
  · simp only [List.mem_cons, List.not_mem_nil, or_false] at hword ⊢
    rcases hword with rfl | rfl | rfl
    · exact .inl rfl
    · exact .inr rfl
    · exact absurd hi (by decide)
  · rcases hdot with rfl | rfl
    · exact .inl hc
    · exact .inr hc

theorem unreadable_of_misspelt {s : String} (h : Misspelt s) : readNumber s = .unreadable := by
  obtain ⟨sign, cs, word, htext, hsign, hword, hspelt, hdot⟩ := h
  simp only [List.mem_cons, List.not_mem_nil, or_false] at hword
  -- the word starts with an `i` of some kind, so with no sign, digit or point
  obtain ⟨c, rest, rfl, hc⟩ : ∃ c rest, cs = c :: rest ∧ PassesFor c 'i' := by
    rcases hword with rfl | rfl <;> cases hspelt with
    | cons hc _ => exact ⟨_, _, rfl, hc⟩
  have hfirst : c ≠ '+' ∧ c ≠ '-' ∧ c ≠ '.' ∧ c.isDigit = false := by
    rcases hc.eq_i with rfl | rfl | rfl | rfl <;> decide
  have hsplit : (splitSign s.toList).2 = c :: rest := by
    rw [htext]
    exact splitSign_of_append hsign hfirst.1 hfirst.2.1
  have hdecimal : readDecimal (c :: rest) = none :=
    readDecimal_of_letter hfirst.2.2.2 hfirst.2.2.1
  have hbeyond : ((c :: rest).any fun c => decide (0x80 ≤ c.toNat)) = true := by
    rw [List.any_eq_true]
    rcases hdot with hdot | hdot
    · exact ⟨_, hdot, by decide⟩
    · exact ⟨_, hdot, by decide⟩
  unfold readNumber
  rcases hs : splitSign s.toList with ⟨negative, cs⟩
  rw [hs] at hsplit
  dsimp only at hsplit
  subst hsplit
  simp only [hdecimal, hbeyond, if_true]
  rcases hword with rfl | rfl
  · simp [spells_iff.mpr hspelt]
  · simp [spells_iff.mpr hspelt]

/-- **What passes for a number and cannot be read.**  Only a word for infinity with a wrong `i`. -/
theorem readNumber_eq_unreadable_iff {s : String} : readNumber s = .unreadable ↔ Misspelt s :=
  ⟨misspelt_of_unreadable, unreadable_of_misspelt⟩

end Number

/-- The value is a text that passes for a number and cannot be read as one. -/
def Value.Misspelt (v : Value) : Prop := ∃ s, v = .text s ∧ Number.Misspelt s

theorem Value.number?_eq_error_iff {v : Value} {why : Stop} :
    v.number? = .error why ↔
      ∃ s, v = .text s ∧ Number.Misspelt s ∧ why = .crash (.unreadable s) := by
  cases v with
  | number x => simp [number?, reading]
  | text s =>
    have hs := @Number.readNumber_eq_unreadable_iff s
    cases h : Number.readNumber s with
    | number x =>
      have hnot : ¬ Number.Misspelt s := by simpa [h] using hs
      simp [number?, reading, h, hnot]
    | noNumber =>
      have hnot : ¬ Number.Misspelt s := by simpa [h] using hs
      simp [number?, reading, h, hnot]
    | unreadable => simp [number?, reading, h, hs.mp h, eq_comm]

theorem Value.misspelt_iff {v : Value} : v.Misspelt ↔ ∃ why, v.number? = .error why := by
  constructor
  · rintro ⟨s, hv, hs⟩
    exact ⟨_, number?_eq_error_iff.mpr ⟨s, hv, hs, rfl⟩⟩
  · rintro ⟨why, h⟩
    obtain ⟨s, hv, hs, -⟩ := number?_eq_error_iff.mp h
    exact ⟨s, hv, hs⟩

/-- The left value is read first. -/
theorem Value.numbers?_eq_error_iff {l r : Value} {why : Stop} :
    Value.numbers? l r = .error why ↔
      l.number? = .error why ∨ ¬ l.Misspelt ∧ r.number? = .error why := by
  unfold Value.numbers?
  rw [Value.misspelt_iff]
  cases l.number? with
  | error why' => simp [bind, Except.bind]
  | ok x =>
    cases r.number? with
    | error why' => simp [bind, Except.bind]
    | ok y => cases x <;> cases y <;> simp [bind, Except.bind, pure, Except.pure]

namespace Operator

/-- The operator reads these operands as numbers. -/
def Reads (op : Operator) (l r : Value) : Prop :=
  op ∈ [minus, times, dividedBy] ∨ op = plus ∧ l.isNumber = false ∧ r.isNumber = false

/-- The operator reads these operands, and cannot read a text among them; the left one comes
first. -/
def Stumbles (op : Operator) (l r : Value) (text : String) : Prop :=
  op.Reads l r ∧ Number.Misspelt text ∧ (l = .text text ∨ ¬ l.Misspelt ∧ r = .text text)

variable {op : Operator} {l r : Value} {span : Option Span} {why : Stop}

theorem exists_stumbles_iff :
    (∃ text, op.Stumbles l r text) ↔ op.Reads l r ∧ (l.Misspelt ∨ r.Misspelt) := by
  constructor
  · rintro ⟨text, hop, htext, rfl | ⟨-, rfl⟩⟩
    · exact ⟨hop, .inl ⟨text, rfl, htext⟩⟩
    · exact ⟨hop, .inr ⟨text, rfl, htext⟩⟩
  · rintro ⟨hop, h⟩
    by_cases hl : l.Misspelt
    · obtain ⟨text, rfl, htext⟩ := hl
      exact ⟨text, hop, htext, .inl rfl⟩
    · obtain ⟨text, rfl, htext⟩ := h.resolve_left hl
      exact ⟨text, hop, htext, .inr ⟨hl, rfl⟩⟩

/-- Operands that cannot be read stop the operation. -/
theorem apply_of_unreadable (hop : op.Reads l r) (h : Value.numbers? l r = .error why) :
    op.apply l r span = .error why := by
  rcases hop with hop | ⟨rfl, hl, hr⟩
  · simp only [List.mem_cons, List.not_mem_nil, or_false] at hop
    rcases hop with rfl | rfl | rfl <;> simp [apply, operands, h, bind, Except.bind]
  · cases l with
    | number x => cases hl
    | text s =>
      cases r with
      | number y => cases hr
      | text t => simp [apply, add, h, bind, Except.bind]

theorem bind_eq_error {α β : Type} {x : Except Stop α} {f : α → Except Stop β}
    (h : (x >>= f) = .error why) : x = .error why ∨ ∃ a, x = .ok a ∧ f a = .error why := by
  cases x with
  | error why' =>
    cases h
    exact .inl rfl
  | ok a => exact .inr ⟨a, rfl, h⟩

theorem operands_error_cases (h : operands op l r span = .error why) :
    (∃ fault, why = .failure ⟨fault, span, none⟩) ∨ Value.numbers? l r = .error why := by
  rcases bind_eq_error h with h | ⟨xy, -, h⟩
  · exact .inr h
  · cases xy with
    | none =>
      cases h
      exact .inl ⟨_, rfl⟩
    | some xy => cases h

/-- Any other operation stops with a failure, if at all. -/
theorem apply_error_cases (h : op.apply l r span = .error why) :
    (∃ fault, why = .failure ⟨fault, span, none⟩) ∨
      op.Reads l r ∧ Value.numbers? l r = .error why := by
  cases op with
  | plus =>
    simp only [apply, add] at h
    split at h
    · cases h
    · rcases bind_eq_error h with h | ⟨xy, -, h⟩
      · exact .inr ⟨.inr ⟨rfl, rfl, rfl⟩, h⟩
      · cases xy <;> cases h
    · cases h
  | minus =>
    rcases bind_eq_error h with h | ⟨xy, -, h⟩
    · exact (operands_error_cases h).imp_right fun h => ⟨.inl (by simp), h⟩
    · cases h
  | times =>
    rcases bind_eq_error h with h | ⟨xy, -, h⟩
    · exact (operands_error_cases h).imp_right fun h => ⟨.inl (by simp), h⟩
    · cases h
  | dividedBy =>
    rcases bind_eq_error h with h | ⟨⟨x, y⟩, -, h⟩
    · exact (operands_error_cases h).imp_right fun h => ⟨.inl (by simp), h⟩
    · simp only at h
      split at h
      · cases h
        exact .inl ⟨_, rfl⟩
      · cases h
  | equals => cases h
  | unknown shown =>
    cases h
    exact .inl ⟨_, rfl⟩

/-- **When an operation crashes.**  Only when it stumbles over a text. -/
theorem apply_eq_crash_iff {c : Crash} :
    op.apply l r span = .error (.crash c) ↔
      ∃ text, c = .unreadable text ∧ op.Stumbles l r text := by
  have hnumbers : Value.numbers? l r = .error (.crash c) ↔ ∃ text, c = .unreadable text ∧
      Number.Misspelt text ∧ (l = .text text ∨ ¬ l.Misspelt ∧ r = .text text) := by
    simp only [Value.numbers?_eq_error_iff, Value.number?_eq_error_iff, Stop.crash.injEq]
    constructor
    · rintro (⟨text, hl, htext, hc⟩ | ⟨hl, text, hr, htext, hc⟩)
      · exact ⟨text, hc, htext, .inl hl⟩
      · exact ⟨text, hc, htext, .inr ⟨hl, hr⟩⟩
    · rintro ⟨text, hc, htext, hl | ⟨hl, hr⟩⟩
      · exact .inl ⟨text, hl, htext, hc⟩
      · exact .inr ⟨hl, text, hr, htext, hc⟩
  constructor
  · intro h
    rcases apply_error_cases h with ⟨fault, h⟩ | ⟨hop, h⟩
    · cases h
    · obtain ⟨text, hc, htext⟩ := hnumbers.mp h
      exact ⟨text, hc, hop, htext⟩
  · rintro ⟨text, hc, hop, htext⟩
    exact apply_of_unreadable hop (hnumbers.mpr ⟨text, hc, htext⟩)

end Operator

end DialogueScript
