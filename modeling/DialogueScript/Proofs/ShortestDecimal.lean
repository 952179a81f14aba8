import DialogueScript.Proofs.Rounding

/-!
# The shortest decimal is read back

The search for the shortest decimal of a magnitude stops within its rounds, at a decimal in the
magnitude's cell.  A decimal in a cell is read as the magnitude of the cell.

* `Cell.times`, `Cell.has_times` — a cell in a smaller step holds the same values;
* `Cell.has_of_multiple?`, `Cell.multiple?_eq_none` — one round of the search;
* `search_has` — what the search finds lies in the cell;
* `Decimal.InCell`, `Cell.has_firstStep_iff` — the decimals in a cell, which the search looks for;
* `Decimal.magnitude_eq` — a decimal in the cell of a magnitude is read as it;
* `magnitude_shortest` — so is the shortest decimal of a magnitude.
-/

namespace DialogueScript.Number

/-- The same cell in a step that is `t` times smaller. -/
def Cell.times (t : Nat) (c : Cell) : Cell :=
  { c with low := t * c.low, value := t * c.value, high := t * c.high }

@[simp] theorem Cell.times_one (c : Cell) : c.times 1 = c := by
  simp [Cell.times]

theorem Cell.times_tenfold (t : Nat) (c : Cell) : c.tenfold.times t = c.times (10 * t) := by
  simp only [Cell.times, Cell.tenfold, ← Nat.mul_assoc, Nat.mul_comm t 10]

theorem Cell.has_times {c : Cell} {t x : Nat} (ht : 0 < t) : (c.times t).has (t * x) = c.has x := by
  have hle (a b : Nat) : t * a ≤ t * b ↔ a ≤ b := Nat.mul_le_mul_left_iff ht
  have hlt (a b : Nat) : t * a < t * b ↔ a < b := Nat.mul_lt_mul_left ht
  simp only [has, times, hle, hlt]

/-- A quotient rounds to the whole number on one of its sides. -/
theorem roundDiv_eq (num den : Nat) :
    roundDiv num den = num / den ∨ roundDiv num den = num / den + 1 := by
  unfold roundDiv
  dsimp only
  split
  · exact .inl rfl
  · split
    · exact .inr rfl
    · omega

/-- The multiple that is found lies in the cell. -/
theorem Cell.has_of_multiple? {c : Cell} {step digits : Nat}
    (h : c.multiple? step = some digits) : c.has (digits * step) = true := by
  unfold multiple? at h
  dsimp only at h
  split at h
  · rename_i hbelow habove
    obtain rfl := Option.some.inj h
    rcases roundDiv_eq c.value step with hq | hq <;> rw [hq] <;> assumption
  · obtain rfl := Option.some.inj h
    assumption
  · obtain rfl := Option.some.inj h
    assumption
  · cases h

/-- If none is found, the two on either side of the value lie outside. -/
theorem Cell.multiple?_eq_none {c : Cell} {step : Nat} (h : c.multiple? step = none) :
    c.has (c.value / step * step) = false ∧ c.has ((c.value / step + 1) * step) = false := by
  unfold multiple? at h
  dsimp only at h
  split at h
  · cases h
  · cases h
  · cases h
  · rename_i hbelow habove
    exact ⟨hbelow, habove⟩

/-- Where the value of a cell is a multiple of the step, a multiple is found. -/
theorem Cell.multiple?_ne_none {c : Cell} {step : Nat} (hvalue : c.has c.value = true)
    (h : step ∣ c.value) : c.multiple? step ≠ none := by
  intro hnone
  have hbelow := (Cell.multiple?_eq_none hnone).1
  rw [Nat.div_mul_cancel h, hvalue] at hbelow
  cases hbelow

/-- If the value of the cell becomes a multiple of the step within the rounds, the search stops
before, at a multiple in the cell. -/
theorem search_has {step : Nat} {rounds i : Nat} (hi : i < rounds) {c : Cell} (power : Int)
    (hvalue : c.has c.value = true) (hdvd : step ∣ 10 ^ i * c.value) :
    ∃ j ≤ i, ∃ digits, search step rounds c power = ⟨digits, power - j⟩ ∧
      (c.times (10 ^ j)).has (digits * step) = true := by
  induction rounds generalizing i c power with
  | zero => omega
  | succ rounds ih =>
    unfold search
    cases hfound : c.multiple? step with
    | some digits =>
      refine ⟨0, Nat.zero_le i, digits, by simp, ?_⟩
      simpa using Cell.has_of_multiple? hfound
    | none =>
      have hpos : i ≠ 0 := by
        rintro rfl
        exact Cell.multiple?_ne_none hvalue (by simpa using hdvd) hfound
      obtain ⟨i, rfl⟩ := Nat.exists_eq_succ_of_ne_zero hpos
      have hnext : step ∣ 10 ^ i * c.tenfold.value := by
        rw [Nat.pow_succ, Nat.mul_assoc] at hdvd
        exact hdvd
      have hsame : c.tenfold.has c.tenfold.value = c.has c.value := Cell.has_times (by decide)
      obtain ⟨j, hj, digits, hsearch, hhas⟩ := ih (Nat.lt_of_succ_lt_succ hi) (power - 1)
        (c := c.tenfold) (hsame.trans hvalue) hnext
      have hpower : power - 1 - j = power - (j + 1 : Nat) := by omega
      refine ⟨j + 1, Nat.succ_le_succ hj, digits, hsearch.trans (by rw [hpower]), ?_⟩
      rw [Cell.times_tenfold] at hhas
      rwa [Nat.pow_succ, Nat.mul_comm]

/-- The members of a magnitude's cell, as quotients. -/
theorem Cell.has_iff {k t x : Nat} :
    ((Cell.ofMagnitude k).times t).has (2 * x) = true ↔ InCell k x t := by
  have hlow := Nat.mul_comm t (units (k - 1) + units k)
  have hhigh := Nat.mul_comm t (units k + units (k + 1))
  cases hk : k % 2 == 0 with
  | true =>
    have heven : k % 2 = 0 := by simpa using hk
    simp only [Cell.has, Cell.times, Cell.ofMagnitude, hk, if_true, Bool.and_eq_true,
      decide_eq_true_eq, hlow, hhigh]
    constructor
    · rintro ⟨h1, h2⟩
      exact ⟨h1, h2, fun _ => heven⟩
    · rintro ⟨h1, h2, -⟩
      exact ⟨h1, h2⟩
  | false =>
    have hodd : k % 2 ≠ 0 := by simpa using hk
    simp only [Cell.has, Cell.times, Cell.ofMagnitude, hk, Bool.false_eq_true, if_false,
      Bool.and_eq_true, decide_eq_true_eq, hlow, hhigh]
    constructor
    · rintro ⟨h1, h2⟩
      exact ⟨Nat.le_of_lt h1, Nat.le_of_lt h2, fun he => by omega⟩
    · rintro ⟨h1, h2, hends⟩
      -- the ends belong to the neighbours
      have hne := mt hends hodd
      omega

/-- The decimal's value lies in the cell of `k`. -/
def Decimal.InCell (d : Decimal) (k : Nat) : Prop :=
  match d.exponent with
  | .ofNat e => Number.InCell k ((d.digits * 10 ^ e) <<< 1074) 1
  | .negSucc e => Number.InCell k (d.digits <<< 1074) (10 ^ (e + 1))

/-- The power of ten may be given as a quotient of two powers. -/
theorem Decimal.inCell_iff {d : Decimal} {k a b shift : Nat} (hshift : shift = 1074)
    (hd : d.exponent = a - b) :
    d.InCell k ↔ Number.InCell k ((d.digits * 10 ^ a) <<< shift) (10 ^ b) := by
  have hpos (n : Nat) : 0 < 10 ^ n := Nat.pow_pos (by decide)
  obtain ⟨n, exponent⟩ := d
  unfold Decimal.InCell
  rw [← hshift]
  cases exponent with
  | ofNat e =>
    have hd : (e : Int) = a - b := hd
    obtain rfl : a = b + e := by omega
    have hnum : (n * 10 ^ (b + e)) <<< shift = 10 ^ b * (n * 10 ^ e) <<< shift := by
      rw [Nat.shiftLeft_eq, Nat.shiftLeft_eq]
      ring
    dsimp only
    rw [hnum, ← Number.InCell.mul_iff (hpos b), Nat.mul_one]
  | negSucc e =>
    have hd : Int.negSucc e = a - b := hd
    obtain rfl : b = a + (e + 1) := by omega
    have hnum : (n * 10 ^ a) <<< shift = 10 ^ a * n <<< shift := by
      rw [Nat.shiftLeft_eq, Nat.shiftLeft_eq]
      ring
    dsimp only
    rw [hnum, Nat.pow_add 10 a (e + 1), Number.InCell.mul_iff (hpos a)]

theorem mul_shiftLeft_succ (a b n : Nat) : a * b <<< (n + 1) = 2 * (a * b) <<< n := by
  simp only [Nat.shiftLeft_eq]
  ring

/-- What the search looks for in a cell are the decimals in it. -/
theorem Cell.has_firstStep_iff {k j digits : Nat} :
    ((Cell.ofMagnitude k).times (10 ^ j)).has (digits * firstStep) = true ↔
      Decimal.InCell ⟨digits, greatestPower - j⟩ k := by
  -- with the numbers put in, unification would compute the powers
  obtain ⟨shift, hshift⟩ : ∃ shift, shift = 1074 := ⟨_, rfl⟩
  have hsucc : shift + 1 = 1075 := by omega
  unfold firstStep
  generalize greatestPower = power
  rw [Decimal.inCell_iff hshift rfl, Nat.pow_eq, ← hsucc, mul_shiftLeft_succ, Cell.has_iff]

/-- The lower end of the cell of a positive magnitude is positive. -/
theorem InCell.le_two_mul {k num den : Nat} (hk : 0 < k) (h : InCell k num den) :
    den ≤ 2 * num := by
  have hpos := units_lt_units (show 0 < k from hk)
  exact (Nat.le_mul_of_pos_left den (by omega)).trans h.low

/-- A decimal place makes up for three binary ones. -/
theorem two_pow_le_ten_pow {m n : Nat} (h : m ≤ 3 * n) : 2 ^ m ≤ 10 ^ n :=
  calc 2 ^ m ≤ 2 ^ (3 * n) := Nat.pow_le_pow_right (by decide) h
    _ = 8 ^ n := Nat.pow_mul 2 3 n
    _ ≤ 10 ^ n := Nat.pow_le_pow_left (by decide) n

/-- An exponent far below the digits leaves less than half a unit. -/
theorem Decimal.exponent_ge {d : Decimal} {k : Nat} (hk : 0 < k) (h : d.InCell k) :
    -((d.digits.log2 : Int) + 400) ≤ d.exponent := by
  obtain ⟨n, exponent⟩ := d
  cases exponent with
  | ofNat e => exact (by omega : -((n.log2 : Int) + 400) ≤ (e : Int))
  | negSucc e =>
    by_contra hsmall
    dsimp only at hsmall
    have hle : 10 ^ (e + 1) ≤ 2 * n <<< 1074 := InCell.le_two_mul hk h
    obtain ⟨shift, hshift⟩ : ∃ shift, shift = 1074 := ⟨_, rfl⟩
    rw [← hshift, Nat.shiftLeft_eq, Nat.mul_left_comm, ← Nat.pow_succ',
      Nat.succ_eq_add_one] at hle
    have hn : n < 2 ^ (n.log2 + 1) := Nat.lt_log2_self
    have hgreat : 2 ^ (n.log2 + 1) * 2 ^ (shift + 1) ≤ 10 ^ (e + 1) := by
      rw [← Nat.pow_add]
      exact two_pow_le_ten_pow (by omega)
    have := Nat.mul_lt_mul_of_pos_right hn (Nat.two_pow_pos (shift + 1))
    omega

theorem Decimal.InCell.digits_ne_zero {d : Decimal} {k : Nat} (hk : 0 < k) (h : d.InCell k) :
    d.digits ≠ 0 := by
  have hten (n : Nat) : 0 < 10 ^ n := Nat.pow_pos (by decide)
  obtain ⟨n, exponent⟩ := d
  rintro rfl
  cases exponent with
  | ofNat e =>
    have hle : 1 ≤ 2 * (0 * 10 ^ e) <<< 1074 := Number.InCell.le_two_mul hk h
    rw [Nat.zero_mul, Nat.zero_shiftLeft] at hle
    omega
  | negSucc e =>
    have hle : 10 ^ (e + 1) ≤ 2 * 0 <<< 1074 := Number.InCell.le_two_mul hk h
    rw [Nat.zero_shiftLeft] at hle
    have := hten (e + 1)
    omega

/-- A decimal in the cell of a magnitude is read as this magnitude, unless its exponent is out of
all proportion. -/
theorem Decimal.magnitude_eq {d : Decimal} {k : Nat} (hk : 0 < k) (hd : d.exponent ≤ 400)
    (h : d.InCell k) : d.magnitude = k := by
  have hlow := Decimal.exponent_ge hk h
  have hdigits := h.digits_ne_zero hk
  obtain ⟨n, exponent⟩ := d
  unfold Decimal.magnitude
  rw [if_neg hdigits, if_neg (Int.not_lt.2 hd), if_neg (Int.not_lt.2 hlow)]
  cases exponent with
  | ofNat e => exact nearest_eq Nat.one_pos h
  | negSucc e => exact nearest_eq (Nat.pow_pos (by decide)) h

/-- The value of a magnitude becomes a whole multiple of the first step: the decimal places make up
for the binary ones. -/
theorem firstStep_dvd (k : Nat) :
    ∃ i < searchRounds, firstStep ∣ 10 ^ i * (Cell.ofMagnitude k).value := by
  have hpow (p n : Nat) : Nat.pow 10 p <<< n ∣ 10 ^ (p + n) := by
    rw [Nat.shiftLeft_eq, Nat.pow_add]
    exact Nat.mul_dvd_mul_left _ (pow_dvd_pow_of_dvd (by decide) n)
  exact ⟨greatestPower + 1075, by decide, Nat.dvd_mul_right_of_dvd (hpow greatestPower 1075) _⟩

/-- **The shortest decimal of a magnitude is read as this magnitude.** -/
theorem magnitude_shortest (k : Nat) : (shortest k).magnitude = k := by
  unfold shortest
  split
  · rename_i h
    rw [h]
    rfl
  · rename_i h
    have hk : 0 < k := Nat.pos_of_ne_zero h
    obtain ⟨i, hi, hdvd⟩ := firstStep_dvd k
    obtain ⟨j, -, digits, hsearch, hhas⟩ := search_has hi greatestPower (Cell.has_value hk) hdvd
    have hpower : (greatestPower : Int) - j ≤ 400 := by
      have : greatestPower = 309 := rfl
      omega
    rw [hsearch]
    exact Decimal.magnitude_eq hk hpower (Cell.has_firstStep_iff.mp hhas)

end DialogueScript.Number
