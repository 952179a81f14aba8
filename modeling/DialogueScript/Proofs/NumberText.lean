import Mathlib.Data.List.TakeWhile
import DialogueScript.Number.Layout
import DialogueScript.Proofs.BitPatterns
import DialogueScript.Proofs.ShortestDecimal

/-!
# The text of a number is read back

What a number is displayed as is a row of digits with at most one point among them, in front of it a
minus, or a word.  Read as a number, it is the number again, whatever the number is.

* `NumeralText` — digits, and then maybe a point with digits behind it;
* `Decimal.positional_rows` — the positional text of a decimal is such a row, and which digits it
  is made of; `Decimal.positional_numeral` — and what it stands for;
* `takeWhile_dropWhile_append` — where a row of characters of one class ends;
* `readDecimal_numeral` — how such a row is read;
* `ofNumeral_display` — a number without a sign is the number of its numeral;
* `readNumber_display` — a number is read back from its text; `display_injective` — so different
  numbers have different texts.
-/

namespace DialogueScript.Number

/-! ## Rows of digits -/

theorem digitsValue_append (as bs : List Char) :
    digitsValue (as ++ bs) = bs.foldl (fun n c => 10 * n + (c.toNat - 48)) (digitsValue as) :=
  List.foldl_append

theorem digitsValue_toDigits (n : Nat) : digitsValue (Nat.toDigits 10 n) = n :=
  Nat.ofDigitChars_toDigits (by decide) (by decide)

theorem isDigit_of_mem_toDigits {n : Nat} : ∀ c ∈ Nat.toDigits 10 n, c.isDigit = true :=
  fun _ => Nat.isDigit_of_mem_toDigits (by decide) (by decide)

theorem toLower_of_isDigit {c : Char} (h : c.isDigit = true) : c.toLower = c := by
  simp only [Char.isDigit, Bool.and_eq_true, decide_eq_true_eq, UInt32.le_iff_toNat_le] at h
  unfold Char.toLower
  split
  · rename_i hc
    simp only [UInt32.le_iff_toNat_le] at hc
    simp at h hc
    omega
  · rfl

/-- Zeros behind the digits are powers of ten. -/
theorem digitsValue_append_zeros (ds : List Char) (e : Nat) :
    digitsValue (ds ++ List.replicate e '0') = digitsValue ds * 10 ^ e := by
  rw [digitsValue_append]
  induction e generalizing ds with
  | zero => simp
  | succ e ih =>
    have hzero : digitsValue (ds ++ ['0']) = 10 * digitsValue ds := by
      rw [digitsValue_append]
      rfl
    have := ih (ds ++ ['0'])
    rw [hzero] at this
    rw [List.replicate_succ, List.foldl_cons, Nat.pow_succ', Nat.mul_left_comm, ← Nat.mul_assoc]
    exact this

/-- Zeros in front of the digits change nothing. -/
theorem digitsValue_zeros_append (e : Nat) (ds : List Char) :
    digitsValue (List.replicate e '0' ++ ds) = digitsValue ds := by
  induction e with
  | zero => rfl
  | succ e ih => exact ih

/-! ## Where a row of characters ends -/

theorem takeWhile_dropWhile_append {p : Char → Bool} {as bs : List Char}
    (has : ∀ c ∈ as, p c = true) (hbs : ∀ c ∈ bs.head?, p c = false) :
    (as ++ bs).takeWhile p = as ∧ (as ++ bs).dropWhile p = bs := by
  rw [List.takeWhile_append_of_pos has, List.dropWhile_append_of_pos has]
  cases bs with
  | nil => simp
  | cons b bs =>
    have hb : p b = false := hbs b rfl
    simp [hb]

/-! ## Numerals -/

/-- The point and the digits behind it, if there are any. -/
def point (fraction : List Char) : List Char := if fraction = [] then [] else '.' :: fraction

/-- Digits, and then maybe a point with digits behind it. -/
structure NumeralText (cs whole fraction : List Char) : Prop where
  text : cs = whole ++ point fraction
  whole_ne_nil : whole ≠ []
  whole_digits : ∀ c ∈ whole, c.isDigit = true
  fraction_digits : ∀ c ∈ fraction, c.isDigit = true

theorem head?_point (fraction : List Char) : ∀ c ∈ (point fraction).head?, c.isDigit = false := by
  unfold point
  split
  · simp
  · simp

/-- A numeral is read as its digits, with the places of its fraction. -/
theorem readDecimal_numeral {cs whole fraction : List Char} (h : NumeralText cs whole fraction) :
    readDecimal cs = some ⟨digitsValue (whole ++ fraction), -fraction.length⟩ := by
  obtain ⟨rfl, hne, hwhole, hfraction⟩ := h
  obtain ⟨htake, hdrop⟩ := takeWhile_dropWhile_append hwhole (head?_point fraction)
  have hempty : whole.isEmpty = false := by simpa using hne
  have hsplit : splitFraction (point fraction) = (fraction, []) := by
    unfold point
    split
    · rename_i h
      rw [h]
      rfl
    · have hall : fraction.takeWhile Char.isDigit = fraction :=
        List.takeWhile_eq_self_iff.mpr hfraction
      have hrest : fraction.dropWhile Char.isDigit = [] := List.dropWhile_eq_nil_iff.mpr hfraction
      rw [splitFraction, hall, hrest]
  unfold readDecimal
  dsimp only
  rw [htake, hdrop, hsplit, hempty]
  simp [readExponent]

theorem numeralText_of_fraction {whole fraction : List Char} (hne : whole ≠ [])
    (hfraction : fraction ≠ []) (hdigits : ∀ c ∈ whole ++ fraction, c.isDigit = true) :
    NumeralText (whole ++ '.' :: fraction) whole fraction where
  text := by rw [point, if_neg hfraction]
  whole_ne_nil := hne
  whole_digits c hc := hdigits c (List.mem_append_left _ hc)
  fraction_digits c hc := hdigits c (List.mem_append_right _ hc)

/-- With too few digits for the places behind the point, zeros stand in front of them. -/
theorem positional_of_le {n e : Nat} (h : (Nat.toDigits 10 n).length ≤ e + 1) :
    Decimal.positional ⟨n, .negSucc e⟩ =
      ['0'] ++ '.' :: (List.replicate (e + 1 - (Nat.toDigits 10 n).length) '0' ++
        Nat.toDigits 10 n) := by
  unfold Decimal.positional
  dsimp only
  rw [Nat.sub_eq_zero_of_le h]
  rfl

/-- Otherwise the last digits stand behind the point. -/
theorem positional_of_lt {n e : Nat} (h : e + 1 < (Nat.toDigits 10 n).length) :
    Decimal.positional ⟨n, .negSucc e⟩ =
      (Nat.toDigits 10 n).take ((Nat.toDigits 10 n).length - (e + 1)) ++
        '.' :: (Nat.toDigits 10 n).drop ((Nat.toDigits 10 n).length - (e + 1)) := by
  have hwhole : ((Nat.toDigits 10 n).take ((Nat.toDigits 10 n).length - (e + 1))).isEmpty =
      false := by
    rw [List.isEmpty_eq_false_iff, ← List.length_pos_iff, List.length_take]
    omega
  have hpad : e + 1 - ((Nat.toDigits 10 n).drop ((Nat.toDigits 10 n).length - (e + 1))).length =
      0 := by
    rw [List.length_drop]
    omega
  unfold Decimal.positional List.leftpad
  dsimp only
  rw [hwhole, hpad]
  rfl

/-- The positional text of a decimal is a numeral, with as many places behind the point as the
exponent says.  Its digits are those of the decimal with zeros up to the point, or there is one zero
in front of the point and zeros between it and the digits. -/
theorem Decimal.positional_rows (d : Decimal) :
    ∃ whole fraction, NumeralText d.positional whole fraction ∧
      fraction.length = (-d.exponent).toNat ∧
      (whole ++ fraction = Nat.toDigits 10 d.digits ++ List.replicate d.exponent.toNat '0' ∨
        whole = ['0'] ∧
          ∃ zeros, fraction = List.replicate zeros '0' ++ Nat.toDigits 10 d.digits) := by
  obtain ⟨n, exponent⟩ := d
  have hdigit := isDigit_of_mem_toDigits (n := n)
  have hzero (e : Nat) : ∀ c ∈ List.replicate e '0', c.isDigit = true := by
    intro c hc
    rw [List.eq_of_mem_replicate hc]
    rfl
  cases exponent with
  | ofNat e =>
    refine ⟨Nat.toDigits 10 n ++ List.replicate e '0', [], ⟨?_, ?_, ?_, by simp⟩, ?_, ?_⟩
    · simp [positional, point]
    · simp [Nat.toDigits_ne_nil]
    · exact List.forall_mem_append.mpr ⟨hdigit, hzero e⟩
    · exact (by omega : 0 = (-(e : Int)).toNat)
    · exact .inl (List.append_nil _)
  | negSucc e =>
    dsimp only
    rw [show (Int.negSucc e).toNat = 0 from rfl, List.replicate_zero, List.append_nil]
    rcases Nat.lt_or_ge (e + 1) (Nat.toDigits 10 n).length with hlong | hshort
    · rw [positional_of_lt hlong]
      refine ⟨_, _, numeralText_of_fraction ?_ ?_ ?_, ?_, .inl (List.take_append_drop _ _)⟩
      · rw [← List.length_pos_iff, List.length_take]
        omega
      · rw [← List.length_pos_iff, List.length_drop]
        omega
      · rwa [List.take_append_drop]
      · rw [List.length_drop]
        show _ = e + 1
        omega
    · rw [positional_of_le hshort]
      refine ⟨_, _, numeralText_of_fraction (by simp) ?_ ?_, ?_, .inr ⟨rfl, _, rfl⟩⟩
      · simp [Nat.toDigits_ne_nil]
      · rw [← List.append_assoc]
        exact List.forall_mem_append.mpr
          ⟨List.forall_mem_append.mpr ⟨by simp, hzero _⟩, hdigit⟩
      · rw [List.length_append, List.length_replicate]
        show _ = e + 1
        omega

/-- All digits of the positional text together are those of the decimal and the zeros up to the
point, and the places behind the point are those of the exponent. -/
theorem Decimal.positional_numeral (d : Decimal) :
    ∃ whole fraction, NumeralText d.positional whole fraction ∧
      digitsValue (whole ++ fraction) = d.digits * 10 ^ d.exponent.toNat ∧
      fraction.length = (-d.exponent).toNat := by
  obtain ⟨whole, fraction, hnumeral, hlength, hrows⟩ := d.positional_rows
  refine ⟨whole, fraction, hnumeral, ?_, hlength⟩
  rcases hrows with hrow | ⟨rfl, zeros, rfl⟩
  · rw [hrow, digitsValue_append_zeros, digitsValue_toDigits]
  · have hpos : 0 < (Nat.toDigits 10 d.digits).length := Nat.length_toDigits_pos
    rw [List.length_append] at hlength
    have hzero : d.exponent.toNat = 0 := by omega
    rw [← List.append_assoc, ← List.replicate_one, List.replicate_append_replicate,
      digitsValue_zeros_append, digitsValue_toDigits, hzero, Nat.pow_zero, Nat.mul_one]

/-! ## Reading a text back -/

theorem magnitude_of_nonneg (n : Nat) {e : Nat} (he : e ≤ 400) :
    Decimal.magnitude ⟨n, Int.ofNat e⟩ =
      if n = 0 then 0 else nearest ((n * 10 ^ e) <<< 1074) 1 := by
  have hgreat : ¬ (400 : Int) < Int.ofNat e := Int.not_lt.mpr (Int.ofNat_le.mpr he)
  have hsmall : ¬ Int.ofNat e < -((n.log2 : Int) + 400) := by
    have : (0 : Int) ≤ Int.ofNat e := Int.natCast_nonneg e
    omega
  unfold Decimal.magnitude
  dsimp only
  rw [if_neg hgreat, if_neg hsmall]
  rfl

/-- Read from its positional text, a decimal has the same magnitude. -/
theorem readDecimal_positional {d : Decimal} (hd : d.exponent ≤ 400) :
    ∃ d', readDecimal d.positional = some d' ∧ d'.magnitude = d.magnitude := by
  obtain ⟨whole, fraction, hnumeral, hvalue, hlength⟩ := d.positional_numeral
  refine ⟨_, readDecimal_numeral hnumeral, ?_⟩
  rw [hvalue, hlength]
  obtain ⟨n, exponent⟩ := d
  cases exponent with
  | ofNat e =>
    have he : e ≤ 400 := Int.ofNat_le.mp hd
    have hplaces : -((-(Int.ofNat e)).toNat : Int) = Int.ofNat 0 := by simp
    dsimp only
    rw [hplaces, magnitude_of_nonneg _ (Nat.zero_le 400), magnitude_of_nonneg n he, Nat.pow_zero,
      Nat.mul_one]
    simp
  | negSucc e =>
    dsimp only
    rw [show (Int.negSucc e).toNat = 0 from rfl, Nat.pow_zero, Nat.mul_one]
    rfl

theorem exponent_shortest (k : Nat) : (shortest k).exponent ≤ 400 := by
  unfold shortest
  split
  · decide
  · rename_i h
    obtain ⟨i, hi, hdvd⟩ := firstStep_dvd k
    obtain ⟨j, -, digits, hsearch, -⟩ := search_has hi greatestPower
      (Cell.has_value (Nat.pos_of_ne_zero h)) hdvd
    have hpower : greatestPower = 309 := rfl
    rw [hsearch]
    dsimp only
    omega

/-- A magnitude is read from the positional text of its shortest decimal. -/
theorem readDecimal_shortest (k : Nat) :
    ∃ d, readDecimal (shortest k).positional = some d ∧ d.magnitude = k := by
  obtain ⟨d, hread, hmagnitude⟩ := readDecimal_positional (exponent_shortest k)
  exact ⟨d, hread, hmagnitude.trans (magnitude_shortest k)⟩

/-- A positional text begins with a digit, so a sign in front of it is split off. -/
theorem splitSign_minus (negative : Bool) (d : Decimal) :
    splitSign (minus negative ++ d.positional) = (negative, d.positional) := by
  obtain ⟨whole, fraction, ⟨htext, hne, hdigits, -⟩, -⟩ := d.positional_numeral
  obtain ⟨c, cs, rfl⟩ := List.exists_cons_of_ne_nil hne
  have hc : c.isDigit = true := hdigits c List.mem_cons_self
  rw [htext]
  cases negative with
  | true => rfl
  | false =>
    have hplus : c ≠ '+' := by rintro rfl; cases hc
    have hminus : c ≠ '-' := by rintro rfl; cases hc
    show splitSign (c :: _) = _
    unfold splitSign
    split
    · rename_i heq
      exact absurd (List.cons.inj heq).1 hplus
    · rename_i heq
      exact absurd (List.cons.inj heq).1 hminus
    · rfl

/-- The text of a finite number. -/
theorem display_of_finite {x : Float} (h : magnitude x < infinite) :
    (display x).toList = minus (isNegative x) ++ (shortest (magnitude x)).positional := by
  unfold display write
  dsimp only
  rw [if_neg (by omega), if_neg (by omega), String.toList_ofList]

/-- The text of an infinite number. -/
theorem display_of_infinite {x : Float} (h : magnitude x = infinite) :
    display x = String.ofList (minus (isNegative x) ++ ['i', 'n', 'f']) := by
  unfold display write
  dsimp only
  rw [if_neg (by omega), if_pos h]

/-- **A number is read back from its text**, be it finite, infinite or none, and with its sign. -/
theorem readNumber_display (x : Float) : readNumber (display x) = .number x := by
  rcases Nat.lt_trichotomy (magnitude x) infinite with hlt | heq | hgt
  · obtain ⟨d, hread, hmagnitude⟩ := readDecimal_shortest (magnitude x)
    unfold readNumber
    rw [display_of_finite hlt, splitSign_minus]
    dsimp only
    rw [hread]
    show Reading.number (ofMagnitude (isNegative x) d.magnitude) = _
    rw [hmagnitude, ofMagnitude_magnitude (Nat.le_of_lt hlt)]
  · have hx : ofMagnitude (isNegative x) infinite = x := by
      rw [← heq]
      exact ofMagnitude_magnitude (Nat.le_of_eq heq)
    rw [display_of_infinite heq]
    generalize isNegative x = negative at hx
    rw [← hx]
    cases negative with
    | false => rfl
    | true => rfl
  · rw [eq_notANumber hgt]
    rfl

/-- Different numbers have different texts. -/
theorem display_injective : Function.Injective display := by
  intro x y h
  have hread := readNumber_display x
  rw [h, readNumber_display] at hread
  exact (Reading.number.inj hread).symm

/-- A finite number without a sign is the number of its numeral. -/
theorem ofNumeral_display {x : Float} (hfinite : magnitude x < infinite)
    (hsign : isNegative x = false) : ofNumeral (display x).toList = x := by
  obtain ⟨d, hread, hmagnitude⟩ := readDecimal_shortest (magnitude x)
  have hx := ofMagnitude_magnitude (Nat.le_of_lt hfinite)
  rw [hsign] at hx
  rw [display_of_finite hfinite, hsign]
  show ofNumeral (shortest (magnitude x)).positional = x
  unfold ofNumeral
  rw [hread]
  dsimp only
  rw [hmagnitude, hx]

end DialogueScript.Number
