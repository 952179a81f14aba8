import Mathlib.Algebra.Group.Nat.Defs
import Mathlib.Data.List.Basic
import DialogueScript.Text.Quoted

/-!
# Texts between quotes

A text between quotes is one line, from which the text can be read back: every escaped character
says by itself where it ends.

* `Quoted.hexValue_hex`, `Quoted.length_hex` — the number in a hexadecimal escape, and its width;
* `Quoted.Escaped`, `Quoted.escaped_escape` — all the ways in which a character is written;
* `Quoted.Escaped.unescape_append` — **an escaped character is read back**, whatever follows it;
* `Text.quoted_injective` — different texts are different between quotes;
* `Text.newline_not_mem_quoted` — a text between quotes is one line.
-/

namespace DialogueScript.Text

namespace Quoted

/-! ## Hexadecimal digits -/

/-- What a hexadecimal digit in lower case stands for. -/
def hexDigit (c : Char) : Nat := if c.isDigit then c.toNat - 48 else c.toNat - 87

/-- The number that a row of hexadecimal digits stands for. -/
def hexValue (cs : List Char) : Nat := cs.foldl (fun n c => 16 * n + hexDigit c) 0

theorem hexDigit_digitChar : ∀ n < 16, hexDigit n.digitChar = n := by decide

theorem newline_ne_digitChar : ∀ n < 16, '\n' ≠ n.digitChar := by decide

theorem hexValue_toDigits (n : Nat) : hexValue (Nat.toDigits 16 n) = n := by
  induction n using Nat.strongRecOn with
  | ind n ih =>
    rw [Nat.toDigits_eq_if (by decide)]
    split
    · rename_i hlt
      have hdigit := hexDigit_digitChar n hlt
      simpa [hexValue] using hdigit
    · have hfront : hexValue (Nat.toDigits 16 (n / 16)) = n / 16 := ih (n / 16) (by omega)
      have hlast := hexDigit_digitChar (n % 16) (by omega)
      unfold hexValue at hfront ⊢
      rw [List.foldl_append, hfront, List.foldl_cons, List.foldl_nil, hlast]
      omega

/-- Zeros in front of the digits change nothing. -/
theorem hexValue_hex (width n : Nat) : hexValue (hex width n) = n := by
  have hzeros (k : Nat) (cs : List Char) : hexValue (List.replicate k '0' ++ cs) = hexValue cs := by
    induction k with
    | zero => rfl
    | succ k ih => exact ih
  rw [hex, List.leftpad, hzeros, hexValue_toDigits]

theorem length_hex {width n : Nat} (hwidth : 0 < width) (h : n < 16 ^ width) :
    (hex width n).length = width := by
  have hle := (Nat.length_toDigits_le_iff (by decide) hwidth).mpr h
  rw [hex, List.length_leftpad]
  omega

theorem newline_not_mem_hex (width n : Nat) : '\n' ∉ hex width n := by
  have hdigits : '\n' ∉ Nat.toDigits 16 n := by
    induction n using Nat.strongRecOn with
    | ind n ih =>
      rw [Nat.toDigits_eq_if (by decide)]
      split
      · rename_i hlt
        exact fun h => newline_ne_digitChar n hlt (List.mem_singleton.mp h)
      · rw [List.mem_append, List.mem_singleton, not_or]
        exact ⟨ih (n / 16) (by omega), newline_ne_digitChar (n % 16) (by omega)⟩
  rw [hex, List.leftpad, List.mem_append, not_or]
  refine ⟨fun h => ?_, hdigits⟩
  cases List.eq_of_mem_replicate h

/-! ## Escaped characters -/

/-- Whitespace that has a letter of its own behind the backslash. -/
def letters : List (Char × Char) := [('\t', 't'), ('\n', 'n'), ('\r', 'r')]

/-- The letters in front of hexadecimal digits, with the number of digits. -/
def widths : List (Char × Nat) := [('x', 2), ('u', 4), ('U', 8)]

/-- How the character `c` can be written between quotes `q`. -/
inductive Escaped (q c : Char) : List Char → Prop
  | mark (hc : c = q ∨ c = backslash) : Escaped q c [backslash, c]
  | letter {letter : Char} (hletter : (c, letter) ∈ letters) : Escaped q c [backslash, letter]
  | plain (hbackslash : c ≠ backslash) (hnewline : c ≠ '\n') : Escaped q c [c]
  | code {letter : Char} {width : Nat} (hletter : (letter, width) ∈ widths)
      (hlt : c.toNat < 16 ^ width) : Escaped q c (backslash :: letter :: hex width c.toNat)

theorem escaped_escape (q c : Char) : Escaped q c (escape q c) := by
  unfold escape
  split
  · rename_i hc
    rw [Bool.or_eq_true, beq_iff_eq, beq_iff_eq] at hc
    exact .mark hc
  rename_i hmark
  split
  · rename_i hc
    exact .letter (by simp [letters, beq_iff_eq.mp hc])
  split
  · rename_i hc
    exact .letter (by simp [letters, beq_iff_eq.mp hc])
  rename_i hnewline
  split
  · rename_i hc
    exact .letter (by simp [letters, beq_iff_eq.mp hc])
  split
  · exact .plain (by rintro rfl; simp at hmark) (by rintro rfl; simp at hnewline)
  split
  · rename_i hlt
    exact .code (by decide) hlt
  split
  · rename_i hlt
    exact .code (by decide) hlt
  · have hlt : c.toNat < 16 ^ 8 := by
      have hvalid : c.toNat.isValidChar := c.valid
      rcases hvalid with h | ⟨-, h⟩ <;> omega
    exact .code (by decide) hlt

/-- The first character that is written in an escaped text, and what follows it. -/
def unescape : List Char → Option (Char × List Char)
  | [] => none
  | c :: cs =>
    if c = backslash then
      match cs with
      | [] => none
      | 't' :: rest => some ('\t', rest)
      | 'n' :: rest => some ('\n', rest)
      | 'r' :: rest => some ('\r', rest)
      | 'x' :: rest => some (Char.ofNat (hexValue (rest.take 2)), rest.drop 2)
      | 'u' :: rest => some (Char.ofNat (hexValue (rest.take 4)), rest.drop 4)
      | 'U' :: rest => some (Char.ofNat (hexValue (rest.take 8)), rest.drop 8)
      | d :: rest => some (d, rest)
    else some (c, cs)

theorem unescape_letter {c letter : Char} (h : (c, letter) ∈ letters) (rest : List Char) :
    unescape (backslash :: letter :: rest) = some (c, rest) := by
  simp only [letters, List.mem_cons, Prod.mk.injEq, List.not_mem_nil, or_false] at h
  rcases h with ⟨rfl, rfl⟩ | ⟨rfl, rfl⟩ | ⟨rfl, rfl⟩ <;> rfl

theorem unescape_code {letter : Char} {width : Nat} (h : (letter, width) ∈ widths)
    (rest : List Char) : unescape (backslash :: letter :: rest) =
      some (Char.ofNat (hexValue (rest.take width)), rest.drop width) := by
  simp only [widths, List.mem_cons, Prod.mk.injEq, List.not_mem_nil, or_false] at h
  rcases h with ⟨rfl, rfl⟩ | ⟨rfl, rfl⟩ | ⟨rfl, rfl⟩ <;> rfl

namespace Escaped

variable {q c : Char} {cs : List Char}

/-- An escaped character is read back, whatever follows it. -/
theorem unescape_append (h : Escaped q c cs) (hq : q = singleQuote ∨ q = doubleQuote)
    (rest : List Char) : unescape (cs ++ rest) = some (c, rest) := by
  cases h with
  | mark hc =>
    have hmark : c = singleQuote ∨ c = doubleQuote ∨ c = backslash := by
      rcases hc with rfl | rfl
      · exact hq.imp_right .inl
      · exact .inr (.inr rfl)
    rcases hmark with rfl | rfl | rfl <;> rfl
  | letter hletter => exact unescape_letter hletter rest
  | plain hbackslash => exact if_neg hbackslash
  | code hletter hlt =>
    have hall : ∀ pair ∈ widths, 0 < pair.2 := by decide
    have hlength := length_hex (hall _ hletter) hlt
    rw [List.cons_append, List.cons_append, unescape_code hletter, List.take_left' hlength,
      List.drop_left' hlength, hexValue_hex, Char.ofNat_toNat]

theorem ne_nil (h : Escaped q c cs) : cs ≠ [] := by
  cases h <;> exact List.cons_ne_nil _ _

theorem newline_not_mem (h : Escaped q c cs) (hq : q = singleQuote ∨ q = doubleQuote) :
    '\n' ∉ cs := by
  have hbackslash : '\n' ≠ backslash := by decide
  cases h with
  | mark hc =>
    have hne : '\n' ≠ c := by
      rcases hc with rfl | rfl
      · rcases hq with rfl | rfl <;> decide
      · exact hbackslash
    simp [hbackslash, hne]
  | letter hletter =>
    have hall : ∀ pair ∈ letters, '\n' ∉ [backslash, pair.2] := by decide
    exact hall _ hletter
  | plain _ hnewline =>
    rw [List.mem_singleton]
    exact hnewline.symm
  | code hletter =>
    have hall : ∀ pair ∈ widths, '\n' ≠ pair.1 := by decide
    rw [List.mem_cons, List.mem_cons, not_or, not_or]
    exact ⟨hbackslash, hall _ hletter, newline_not_mem_hex _ _⟩

end Escaped

/-! ## Quoted texts -/

theorem mark_cases (cs : List Char) : mark cs = singleQuote ∨ mark cs = doubleQuote := by
  unfold mark
  split
  · exact .inr rfl
  · exact .inl rfl

/-- Escaped texts are told apart. -/
theorem flatMap_escape_injective {q : Char} (hq : q = singleQuote ∨ q = doubleQuote) :
    Function.Injective (List.flatMap (escape q)) := by
  intro cs ds h
  induction cs generalizing ds with
  | nil =>
    cases ds with
    | nil => rfl
    | cons d ds => exact absurd (List.append_eq_nil_iff.mp h.symm).1 (escaped_escape q d).ne_nil
  | cons c cs ih =>
    cases ds with
    | nil => exact absurd (List.append_eq_nil_iff.mp h).1 (escaped_escape q c).ne_nil
    | cons d ds =>
      have hread := congrArg unescape h
      rw [List.flatMap_cons, List.flatMap_cons, (escaped_escape q c).unescape_append hq,
        (escaped_escape q d).unescape_append hq] at hread
      obtain ⟨rfl, hrest⟩ := Prod.mk.inj (Option.some.inj hread)
      rw [ih hrest]

theorem encode_injective : Function.Injective encode := by
  intro cs ds h
  obtain ⟨hmark, hrest⟩ := List.cons.inj h
  rw [hmark] at hrest
  exact flatMap_escape_injective (mark_cases ds) (List.append_cancel_right hrest)

theorem newline_not_mem_encode (cs : List Char) : '\n' ∉ encode cs := by
  have hmark : '\n' ≠ mark cs := by
    rcases mark_cases cs with h | h <;> rw [h] <;> decide
  simp only [encode, List.cons_append, List.mem_cons, List.mem_append, List.mem_flatMap,
    List.not_mem_nil, or_false, not_or, not_exists, not_and]
  exact ⟨hmark, fun c _ => (escaped_escape _ c).newline_not_mem (mark_cases cs), hmark⟩

end Quoted

/-- Different texts are different between quotes. -/
theorem quoted_injective : Function.Injective quoted := by
  intro s t h
  exact String.toList_inj.mp (Quoted.encode_injective (String.ofList_injective h))

theorem newline_not_mem_quoted (s : String) : '\n' ∉ (quoted s).toList := by
  rw [quoted, String.toList_ofList]
  exact Quoted.newline_not_mem_encode s.toList

end DialogueScript.Text
