import Mathlib.Data.List.Basic
import DialogueScript.Proofs.CoarsestDecimal
import DialogueScript.Proofs.NumberText

/-!
# The texts of all bit patterns

A finite number is displayed as a numeral that has no digit too many: no zero in front of its other
whole digits, none behind its fraction, and no point without a fraction.  The other numbers have
words.  Every text is read as its number, so bit for bit as its pattern, and different patterns have
different texts; only the patterns of the number that is none are not told apart.

* `PlainNumeral` — a numeral without superfluous zeros;
* `Decimal.positional_plain` — the positional text of a decimal that does not end in a zero;
* `DisplayText`, `display_displayText` — the texts of numbers;
* `SameNumber`, `ofBits_eq_iff` — patterns of one number;
* `display_ofBits` — **the text of each pattern, what it is read as, and which patterns share it**.
-/

namespace DialogueScript.Number

/-! ## First and last digits -/

theorem digitChar_ne_zero : ∀ n < 10, n ≠ 0 → n.digitChar ≠ '0' := by decide

theorem head?_toDigits {n : Nat} (hn : n ≠ 0) : (Nat.toDigits 10 n).head? ≠ some '0' := by
  induction n using Nat.strongRecOn with
  | ind n ih =>
    rw [Nat.toDigits_eq_if (by decide)]
    split
    · rename_i hlt
      rw [List.head?_cons, ne_eq, Option.some.injEq]
      exact digitChar_ne_zero n hlt hn
    · rw [List.head?_append_of_ne_nil _ Nat.toDigits_ne_nil]
      exact ih (n / 10) (by omega) (by omega)

theorem getLast?_toDigits {n : Nat} (hn : n % 10 ≠ 0) :
    (Nat.toDigits 10 n).getLast? ≠ some '0' := by
  have hlast := digitChar_ne_zero (n % 10) (by omega) hn
  rw [Nat.toDigits_eq_if (by decide)]
  split
  · rename_i hlt
    rw [Nat.mod_eq_of_lt hlt] at hlast
    simpa using hlast
  · simpa using hlast

/-! ## Numerals without superfluous zeros -/

/-- A numeral whose whole digits are a single zero or begin with another digit, and whose fraction
does not end in a zero. -/
structure PlainNumeral (cs whole fraction : List Char) : Prop
    extends NumeralText cs whole fraction where
  leading : whole = ['0'] ∨ whole.head? ≠ some '0'
  trailing : fraction.getLast? ≠ some '0'

/-- The positional text of a decimal that does not end in a zero has none too many. -/
theorem Decimal.positional_plain {d : Decimal} (h : d.digits % 10 ≠ 0) :
    ∃ whole fraction, PlainNumeral d.positional whole fraction := by
  obtain ⟨whole, fraction, hnumeral, hlength, hrows⟩ := d.positional_rows
  have hfirst : (Nat.toDigits 10 d.digits).head? ≠ some '0' :=
    head?_toDigits fun hzero => h (by rw [hzero])
  have hlast := getLast?_toDigits h
  refine ⟨whole, fraction, { hnumeral with leading := ?_, trailing := ?_ }⟩
  · rcases hrows with hrow | ⟨hwhole, -⟩
    · have hhead : (whole ++ fraction).head? = whole.head? :=
        List.head?_append_of_ne_nil whole hnumeral.whole_ne_nil
      rw [hrow, List.head?_append_of_ne_nil _ Nat.toDigits_ne_nil] at hhead
      exact .inr (hhead ▸ hfirst)
    · exact .inl hwhole
  · cases hfraction : fraction with
    | nil => simp
    | cons c cs =>
      rw [← hfraction]
      have hne : fraction ≠ [] := by simp [hfraction]
      rcases hrows with hrow | ⟨-, zeros, hrow⟩
      · -- the exponent is negative, so no zeros stand behind the digits
        have hpositive := List.length_pos_iff.mpr hne
        have hzeros : d.exponent.toNat = 0 := by omega
        rw [hzeros, List.replicate_zero, List.append_nil] at hrow
        rw [← List.getLast?_append_of_ne_nil whole hne, hrow]
        exact hlast
      · rw [hrow, List.getLast?_append_of_ne_nil _ Nat.toDigits_ne_nil]
        exact hlast

/-- The texts that numbers have: words, and plain numerals that may have a minus in front. -/
inductive DisplayText : String → Prop
  | notANumber : DisplayText "NaN"
  | infinity : DisplayText "inf"
  | minusInfinity : DisplayText "-inf"
  | numeral (negative : Bool) {cs whole fraction : List Char} (h : PlainNumeral cs whole fraction) :
    DisplayText (String.ofList (minus negative ++ cs))

theorem shortest_plain {k : Nat} (h : k < infinite) :
    ∃ whole fraction, PlainNumeral (shortest k).positional whole fraction := by
  rcases Nat.eq_zero_or_pos k with rfl | hpos
  · refine ⟨['0'], [], ⟨rfl, by simp, by simp, by simp⟩, .inl rfl, by simp⟩
  · exact Decimal.positional_plain (shortest_digits_mod_ten hpos h)

/-- Every number has one of these texts. -/
theorem display_displayText (x : Float) : DisplayText (display x) := by
  rcases Nat.lt_trichotomy (magnitude x) infinite with hlt | heq | hgt
  · obtain ⟨whole, fraction, hplain⟩ := shortest_plain hlt
    rw [← String.ofList_toList (s := display x), display_of_finite hlt]
    exact .numeral (isNegative x) hplain
  · rw [display_of_infinite heq]
    cases isNegative x with
    | false => exact .infinity
    | true => exact .minusInfinity
  · rw [eq_notANumber hgt]
    exact .notANumber

/-! ## Patterns -/

/-- Two patterns are of one number: they are the same, or both are of the number that is none. -/
def SameNumber (a b : UInt64) : Prop :=
  a = b ∨ infinite < a.toNat % signBit ∧ infinite < b.toNat % signBit

theorem ofBits_eq_iff {a b : UInt64} : Float.ofBits a = Float.ofBits b ↔ SameNumber a b := by
  constructor
  · intro h
    by_cases ha : infinite < a.toNat % signBit
    · by_cases hb : infinite < b.toNat % signBit
      · exact .inr ⟨ha, hb⟩
      · rw [ofBits_of_infinite_lt ha] at h
        exact absurd (by rw [← toBits_ofBits hb, ← h]; decide) hb
    · by_cases hb : infinite < b.toNat % signBit
      · rw [ofBits_of_infinite_lt hb] at h
        exact absurd (by rw [← toBits_ofBits ha, h]; decide) ha
      · rw [← toBits_ofBits ha, h, toBits_ofBits hb]
        exact .inl rfl
  · rintro (rfl | ⟨ha, hb⟩)
    · rfl
    · rw [ofBits_of_infinite_lt ha, ofBits_of_infinite_lt hb]

/-- **The texts of all bit patterns.**  The number of a pattern is displayed as a word or a plain
numeral.  Read as a number, this text gives the pattern back, and no pattern of another number has
it. -/
theorem display_ofBits (bits : UInt64) :
    DisplayText (display (Float.ofBits bits)) ∧
      (∃ x, readNumber (display (Float.ofBits bits)) = .number x ∧ SameNumber x.toBits bits) ∧
      ∀ other, display (Float.ofBits other) = display (Float.ofBits bits) ↔
        SameNumber other bits := by
  refine ⟨display_displayText _, ⟨Float.ofBits bits, readNumber_display _, ?_⟩, fun other => ?_⟩
  · rw [← ofBits_eq_iff]
    exact Float.ofBits_toBits _
  · rw [display_injective.eq_iff, ofBits_eq_iff]

end DialogueScript.Number
