import DialogueScript.Proofs.NumericTexts

/-!
# Numbers in messages

A number is written in messages with a fraction or with a power of ten.  Either way it can be read
back, as a number in a script or in an answer is read.

* `readDecimal_fractional`, `readDecimal_scientific` — the two ways to write a decimal, read back;
* `dump_numberText` — **the text of a number in messages is this number**;
* `dump_injective` — so different numbers have different texts;
* `NumberText.not_mem` — and these have no characters but digits, signs and those of three words.
-/

namespace DialogueScript.Number

/-! ## Decimals in messages -/

/-- A quotient is rounded as it is when both its parts are expanded. -/
theorem nearest_mul (num : Nat) {den t : Nat} (hden : 0 < den) (ht : 0 < t) :
    nearest (t * num) (t * den) = nearest num den :=
  nearest_eq (Nat.mul_pos ht hden) ((InCell.mul_iff ht).mpr (inCell_nearest num hden))

/-- A zero behind the point leaves the magnitude as it is. -/
theorem magnitude_tenfold (n : Nat) {e : Nat} (he : e ≤ 400) :
    Decimal.magnitude ⟨n * 10 ^ (e + 1), .negSucc 0⟩ = Decimal.magnitude ⟨n, .ofNat e⟩ := by
  have hzero : n * 10 ^ (e + 1) = 0 ↔ n = 0 := by simp
  have hsmall (m : Nat) : ¬ Int.negSucc 0 < -((m : Int) + 400) := by omega
  rw [magnitude_of_nonneg n he]
  unfold Decimal.magnitude
  dsimp only
  rw [if_neg (by decide : ¬ (400 : Int) < Int.negSucc 0), if_neg (hsmall _)]
  simp only [hzero]
  split
  · rfl
  · -- with the number put in, unification would compute the power
    generalize 1074 = shift
    have hnum : (n * 10 ^ (e + 1)) <<< shift = 10 * (n * 10 ^ e) <<< shift := by
      rw [Nat.shiftLeft_eq, Nat.shiftLeft_eq, Nat.pow_succ]
      ring
    have hden : Nat.pow 10 (0 + 1) = 10 * 1 := rfl
    rw [hnum, hden]
    exact nearest_mul _ Nat.one_pos (by decide : 0 < 10)

/-- Read from its text with a fraction, a decimal has the same magnitude. -/
theorem readDecimal_fractional {d : Decimal} (hd : d.exponent ≤ 400) :
    ∃ d', readDecimal d.fractional = some d' ∧ d'.magnitude = d.magnitude := by
  unfold Decimal.fractional
  split
  · exact readDecimal_positional hd
  · rename_i hnonneg
    obtain ⟨n, exponent⟩ := d
    cases exponent with
    | negSucc e => exact absurd (Int.negSucc_lt_zero e) hnonneg
    | ofNat e =>
      have hdigits : ∀ c ∈ Nat.toDigits 10 n ++ List.replicate e '0' ++ ['0'],
          c.isDigit = true := by
        rw [List.append_assoc, ← List.replicate_succ']
        refine List.forall_mem_append.mpr ⟨isDigit_of_mem_toDigits, fun c hc => ?_⟩
        rw [List.eq_of_mem_replicate hc]
        rfl
      have hnumeral := numeralText_of_fraction (by simp [Nat.toDigits_ne_nil]) (by simp) hdigits
      refine ⟨_, readDecimal_numeral hnumeral, ?_⟩
      rw [List.append_assoc, ← List.replicate_succ', digitsValue_append_zeros,
        digitsValue_toDigits]
      exact magnitude_tenfold n (Int.ofNat_le.mp hd)

/-- A power of ten is written with its sign and at least two digits. -/
theorem exponent_power (power : Int) :
    Exponent ('e' :: (if power < 0 then '-' else '+') ::
      (Nat.toDigits 10 power.natAbs).leftpad 2 '0') power := by
  have hpadded : Digits ((Nat.toDigits 10 power.natAbs).leftpad 2 '0') := by
    refine ⟨by simp [List.leftpad, Nat.toDigits_ne_nil], ?_⟩
    refine List.forall_mem_append.mpr ⟨fun c hc => ?_, isDigit_of_mem_toDigits⟩
    rw [List.eq_of_mem_replicate hc]
    rfl
  have hvalue : digitsValue ((Nat.toDigits 10 power.natAbs).leftpad 2 '0') = power.natAbs := by
    rw [List.leftpad, digitsValue_zeros_append, digitsValue_toDigits]
  split
  · have hpresent := Exponent.present (.inl rfl) .minus hpadded
    rw [hvalue, if_pos rfl] at hpresent
    rwa [show -(power.natAbs : Int) = power by omega] at hpresent
  · have hpresent := Exponent.present (.inl rfl) .plus hpadded
    rw [hvalue, if_neg (by decide)] at hpresent
    rwa [show (power.natAbs : Int) = power by omega] at hpresent

/-- A first digit is followed by a point if other digits follow. -/
theorem significand_of_digits {c : Char} {cs : List Char}
    (h : ∀ d ∈ c :: cs, d.isDigit = true) :
    Significand ([c] ++ if (c :: cs).length ≤ 1 then [] else '.' :: cs) [c] cs := by
  have hfirst : Digits [c] := ⟨by simp, fun d hd => h d (by simp_all)⟩
  cases cs with
  | nil => exact .whole hfirst
  | cons d cs =>
    rw [if_neg (by simp)]
    exact .point hfirst fun d hd => h d (List.mem_cons_of_mem c hd)

/-- Read from its text with a power of ten, a decimal is the same. -/
theorem readDecimal_scientific (d : Decimal) : readDecimal d.scientific = some d := by
  obtain ⟨n, exponent⟩ := d
  unfold Decimal.scientific
  dsimp only
  have hdigits := isDigit_of_mem_toDigits (n := n)
  have hvalue := digitsValue_toDigits n
  have hne : Nat.toDigits 10 n ≠ [] := Nat.toDigits_ne_nil
  generalize Nat.toDigits 10 n = ds at hdigits hvalue hne
  obtain ⟨c, cs, rfl⟩ := List.exists_cons_of_ne_nil hne
  have hread := readDecimal_of_significand (significand_of_digits hdigits)
    (exponent_power (exponent + ((c :: cs).length - 1 : Nat)))
  have hwhole : digitsValue ([c] ++ cs) = n := hvalue
  rw [hwhole] at hread
  refine hread.trans ?_
  rw [show exponent + ((c :: cs).length - 1 : Nat) - (cs.length : Int) = exponent by simp]

theorem signed_minus (negative : Bool) : Signed (minus negative) negative := by
  cases negative with
  | false => exact .absent
  | true => exact .minus

theorem numberText_of_readDecimal {cs : List Char} {d : Decimal} (h : readDecimal cs = some d)
    (negative : Bool) : NumberText (minus negative ++ cs) (ofMagnitude negative d.magnitude) := by
  obtain ⟨body, es, whole, fraction, e, rfl, hbody, hes, rfl⟩ := exists_significand h
  exact .numeral (signed_minus negative) hbody hes

/-! ## All numbers -/

/-- **The text of a number in messages is this number.** -/
theorem dump_numberText (x : Float) : NumberText (dump x).toList x := by
  unfold dump write
  rw [String.toList_ofList]
  rcases Nat.lt_trichotomy (magnitude x) infinite with hlt | heq | hgt
  · have hshortest := magnitude_shortest (magnitude x)
    have hexponent := exponent_shortest (magnitude x)
    dsimp only
    rw [if_neg (by omega), if_neg (by omega)]
    generalize shortest (magnitude x) = d at hshortest hexponent
    obtain ⟨d', hread, hmagnitude⟩ : ∃ d', readDecimal (if -4 < d.places ∧ d.places ≤ 16
        then d.fractional else d.scientific) = some d' ∧ d'.magnitude = d.magnitude := by
      split
      · exact readDecimal_fractional hexponent
      · exact ⟨d, readDecimal_scientific d, rfl⟩
    have htext := numberText_of_readDecimal hread (isNegative x)
    rwa [hmagnitude, hshortest, ofMagnitude_magnitude (Nat.le_of_lt hlt)] at htext
  · have hx := ofMagnitude_magnitude (Nat.le_of_eq heq)
    have htext : NumberText (minus (isNegative x) ++ ['i', 'n', 'f'])
        (ofMagnitude (isNegative x) infinite) := .infinity (signed_minus _) (by decide)
    dsimp only
    rw [if_neg (by omega), if_pos heq]
    rwa [← heq, hx] at htext
  · rw [eq_notANumber hgt]
    exact .notANumber .absent (by decide)

theorem readNumber_dump (x : Float) : readNumber (dump x) = .number x :=
  readNumber_of_numberText (dump_numberText x)

theorem dump_injective : Function.Injective dump := by
  intro x y h
  have hread := readNumber_dump x
  rw [h, readNumber_dump] at hread
  exact (Reading.number.inj hread).symm

theorem NumberText.not_mem {cs : List Char} {x : Float} {c : Char} (h : NumberText cs x)
    (hdigit : c.isDigit = false) (hsign : c ∉ ['+', '-', '.', 'e', 'E'])
    (hword : ∀ word ∈ nanWord :: infinityWords, c.toLower ∉ word) : c ∉ cs := by
  have hdigits {ds : List Char} (hds : ∀ d ∈ ds, d.isDigit = true) : c ∉ ds := by
    intro hc
    rw [hds c hc] at hdigit
    cases hdigit
  have hsigned {sign : List Char} {negative : Bool} (h : Signed sign negative) : c ∉ sign := by
    intro hc
    apply hsign
    cases h <;> simp_all
  have hspelt {text word : List Char} (htext : text.map Char.toLower = word)
      (hmem : word ∈ nanWord :: infinityWords) : c ∉ text := by
    intro hc
    apply hword word hmem
    rw [← htext]
    exact List.mem_map_of_mem hc
  cases h with
  | numeral hs hcs hes =>
    simp only [List.mem_append, not_or]
    refine ⟨hsigned hs, ?_, ?_⟩
    · cases hcs with
      | whole hwhole => exact hdigits hwhole.2
      | point hwhole hfraction => simp_all [hdigits hwhole.2, hdigits hfraction]
      | fraction hfraction => simp_all [hdigits hfraction.2]
    · cases hes with
      | absent => simp
      | present hletter hs hds =>
        simp only [List.mem_cons, List.mem_append, not_or]
        refine ⟨?_, hsigned hs, hdigits hds.2⟩
        rintro rfl
        rcases hletter with rfl | rfl <;> simp at hsign
  | infinity hs hw =>
    rw [List.mem_append, not_or]
    exact ⟨hsigned hs, hspelt rfl (List.mem_cons_of_mem _ hw)⟩
  | notANumber hs hw =>
    rw [List.mem_append, not_or]
    exact ⟨hsigned hs, hspelt hw List.mem_cons_self⟩

end DialogueScript.Number
