import DialogueScript.Proofs.ShortestDecimal

/-!
# No coarser decimal is read back

Of the decimals that are read as one magnitude, the shortest has the greatest power of ten: the
search goes from great powers to small ones and does not pass a cell that holds a multiple.  So the
last digit of the shortest decimal is no zero.

* `Cell.has_between` — a cell has no holes;
* `Cell.not_has_of_multiple?` — where no multiple is found, the cell holds none;
* `multiple?_of_exponent_lt` — the search has found no multiple of a greater power;
* `Decimal.inCell_of_magnitude` — a decimal lies in the cell of the magnitude it is read as;
* `exponent_le_shortest` — **no decimal that is read as a magnitude is coarser than its shortest**;
* `shortest_digits_mod_ten` — the shortest decimal does not end in a zero.
-/

namespace DialogueScript.Number

/-! ## The search passes no multiple -/

theorem Cell.has_between {c : Cell} {x y z : Nat} (hx : c.has x = true) (hz : c.has z = true)
    (hxy : x ≤ y) (hyz : y ≤ z) : c.has y = true := by
  unfold has at *
  split at hx
  · simp only [*, if_true, Bool.and_eq_true, decide_eq_true_eq] at *
    omega
  · simp only [*, Bool.false_eq_true, if_false, Bool.and_eq_true, decide_eq_true_eq] at *
    omega

/-- A cell that holds a multiple of the step holds one of the two on either side of its value. -/
theorem Cell.not_has_of_multiple? {c : Cell} {step : Nat} (hstep : 0 < step)
    (hvalue : c.has c.value = true) (h : c.multiple? step = none) (n : Nat) :
    c.has (n * step) = false := by
  rw [← Bool.not_eq_true]
  intro hn
  have hbelow : c.value / step * step ≤ c.value := Nat.div_mul_le_self c.value step
  have habove : c.value ≤ (c.value / step + 1) * step := by
    rw [Nat.mul_comm]
    exact Nat.le_of_lt (Nat.lt_mul_div_succ c.value hstep)
  obtain ⟨hfalse, hfalse'⟩ := Cell.multiple?_eq_none h
  rcases Nat.lt_or_ge (c.value / step) n with hlt | hle
  · have hhas := Cell.has_between hvalue hn habove (Nat.mul_le_mul_right step hlt)
    rw [hfalse'] at hhas
    cases hhas
  · have hhas := Cell.has_between hn hvalue (Nat.mul_le_mul_right step hle) hbelow
    rw [hfalse] at hhas
    cases hhas

/-- The search comes to a power of ten only if it has found no multiple of a greater one. -/
theorem multiple?_of_exponent_lt {step rounds j : Nat} {c : Cell} {power : Int}
    (h : (search step rounds c power).exponent < power - j) :
    (c.times (10 ^ j)).multiple? step = none := by
  induction rounds generalizing j c power with
  | zero =>
    have h : power < power - j := h
    omega
  | succ rounds ih =>
    unfold search at h
    cases hfound : c.multiple? step with
    | some digits =>
      rw [hfound] at h
      have h : power < power - j := h
      omega
    | none =>
      rw [hfound] at h
      cases j with
      | zero => simpa using hfound
      | succ j =>
        have hnext : power - (j + 1 : Nat) = power - 1 - j := by omega
        rw [hnext] at h
        rw [Nat.pow_succ', ← Cell.times_tenfold]
        exact ih h

/-! ## Decimals in a cell -/

variable {d : Decimal} {k : Nat}

theorem firstStep_pos : 0 < firstStep := by
  unfold firstStep
  generalize greatestPower = power
  generalize 1075 = shift
  rw [Nat.shiftLeft_eq]
  exact Nat.mul_pos (Nat.pow_pos (by decide)) (Nat.two_pow_pos shift)

/-- Twenty-eight decimal places make up for ninety-three binary ones. -/
theorem two_pow_lt_ten_pow (n : Nat) : 2 ^ (93 * n + 1) < 10 ^ (28 * n + 1) := by
  have hplaces : 2 ^ 93 ≤ 10 ^ 28 := by decide
  calc 2 ^ (93 * n + 1) = 2 ^ (93 * n) * 2 := Nat.pow_succ _ _
    _ = (2 ^ 93) ^ n * 2 := by rw [Nat.pow_mul]
    _ ≤ (10 ^ 28) ^ n * 2 := Nat.mul_le_mul_right 2 (Nat.pow_le_pow_left hplaces n)
    _ = 10 ^ (28 * n) * 2 := by rw [Nat.pow_mul]
    _ < 10 ^ (28 * n) * 10 := Nat.mul_lt_mul_of_pos_left (by decide) (Nat.pow_pos (by decide))
    _ = 10 ^ (28 * n + 1) := (Nat.pow_succ _ _).symm

/-- The first magnitude that is not finite has `2 ^ 1024` times as many units as one. -/
theorem units_infinite {m n : Nat} (h : m + n = 2098) : units infinite = 2 ^ m * 2 ^ n := by
  have hnot : ¬ infinite < binade := by decide
  have hfirst : infinite % binade = 0 := by decide
  have hbinades : infinite / binade = 2047 := by decide
  have hshift : 2047 - 1 = m + n - 52 := by omega
  have hsum : 52 + (m + n - 52) = m + n := by omega
  unfold units
  rw [if_neg hnot, hfirst, hbinades, hshift, Nat.add_zero, binade_eq, Nat.shiftLeft_eq,
    Nat.shiftLeft_eq, Nat.one_mul, ← Nat.pow_add, hsum, Nat.pow_add]

/-- No finite magnitude reaches the greatest power of ten. -/
theorem Decimal.InCell.exponent_lt (hk : 0 < k) (hfinite : k < infinite) (h : d.InCell k) :
    d.exponent < greatestPower := by
  by_contra hge
  obtain ⟨e, he⟩ : ∃ e : Nat, d.exponent = greatestPower + e :=
    ⟨(d.exponent - greatestPower).toNat, by omega⟩
  obtain ⟨shift, hshift⟩ : ∃ shift, shift = 1074 := ⟨_, rfl⟩
  obtain ⟨n, hn⟩ : ∃ n, n = 11 := ⟨_, rfl⟩
  have hpower : greatestPower = 28 * n + 1 := by rw [hn]; rfl
  have hcell := (Decimal.inCell_iff (a := greatestPower + e) (b := 0) hshift (by omega)).mp h
  rw [hpower] at hcell
  have hdigits := Nat.pos_of_ne_zero (h.digits_ne_zero hk)
  have hunits : units infinite = 2 ^ (93 * n + 1) * 2 ^ shift := units_infinite (by omega)
  have hbelow := units_le_units (show k ≤ infinite by omega)
  have habove := units_le_units (show k + 1 ≤ infinite by omega)
  have hhigh := hcell.high
  have hle : d.digits * 10 ^ (28 * n + 1 + e) * 2 ^ shift ≤ 2 ^ (93 * n + 1) * 2 ^ shift := by
    rw [Nat.shiftLeft_eq] at hhigh
    omega
  have hlt : 2 ^ (93 * n + 1) < d.digits * 10 ^ (28 * n + 1 + e) :=
    calc 2 ^ (93 * n + 1) < 10 ^ (28 * n + 1) := two_pow_lt_ten_pow n
      _ ≤ 10 ^ (28 * n + 1 + e) := Nat.pow_le_pow_right (by decide) (Nat.le_add_right _ _)
      _ ≤ d.digits * 10 ^ (28 * n + 1 + e) := Nat.le_mul_of_pos_left _ hdigits
  exact absurd (Nat.le_of_mul_le_mul_right hle (Nat.two_pow_pos shift)) (Nat.not_le.mpr hlt)

/-- A decimal lies in the cell of the magnitude it is read as. -/
theorem Decimal.inCell_of_magnitude (hk : 0 < k) (hfinite : k < infinite)
    (h : d.magnitude = k) : d.InCell k := by
  obtain ⟨n, exponent⟩ := d
  unfold Decimal.magnitude at h
  split at h
  · omega
  · split at h
    · omega
    · split at h
      · omega
      · unfold Decimal.InCell
        cases exponent with
        | ofNat e =>
          rw [← h]
          exact inCell_nearest _ Nat.one_pos
        | negSucc e =>
          rw [← h]
          exact inCell_nearest _ (Nat.pow_pos (by decide))

/-- **No decimal in the cell of a magnitude is coarser than the shortest one.** -/
theorem Decimal.InCell.exponent_le_shortest (hk : 0 < k) (hfinite : k < infinite)
    (h : d.InCell k) : d.exponent ≤ (shortest k).exponent := by
  have hless := h.exponent_lt hk hfinite
  by_contra hlt
  obtain ⟨j, hj⟩ : ∃ j : Nat, d.exponent = greatestPower - j :=
    ⟨(greatestPower - d.exponent).toNat, by omega⟩
  have hshortest : shortest k = search firstStep searchRounds (.ofMagnitude k) greatestPower := by
    unfold shortest
    rw [if_neg (by omega)]
  have hnone : ((Cell.ofMagnitude k).times (10 ^ j)).multiple? firstStep = none := by
    apply multiple?_of_exponent_lt
    rw [← hshortest, ← hj]
    omega
  have hvalue : ((Cell.ofMagnitude k).times (10 ^ j)).has (10 ^ j * (2 * units k)) = true := by
    rw [Cell.has_times (Nat.pow_pos (by decide))]
    exact Cell.has_value hk
  have hhas : ((Cell.ofMagnitude k).times (10 ^ j)).has (d.digits * firstStep) = true := by
    rw [Cell.has_firstStep_iff, ← hj]
    exact h
  rw [Cell.not_has_of_multiple? firstStep_pos hvalue hnone] at hhas
  cases hhas

/-- **No decimal that is read as a magnitude is coarser than the shortest one.** -/
theorem exponent_le_shortest (hk : 0 < k) (hfinite : k < infinite) (h : d.magnitude = k) :
    d.exponent ≤ (shortest k).exponent :=
  (Decimal.inCell_of_magnitude hk hfinite h).exponent_le_shortest hk hfinite

/-- The shortest decimal does not end in a zero: there would be a coarser one. -/
theorem shortest_digits_mod_ten (hk : 0 < k) (hfinite : k < infinite) :
    (shortest k).digits % 10 ≠ 0 := by
  intro hzero
  have hcell := Decimal.inCell_of_magnitude hk hfinite (magnitude_shortest k)
  obtain ⟨shift, hshift⟩ : ∃ shift, shift = 1074 := ⟨_, rfl⟩
  generalize hd : shortest k = d at *
  have hexponent : d.exponent = d.exponent.toNat - (-d.exponent).toNat := by omega
  have hdigits : d.digits * 10 ^ d.exponent.toNat =
      d.digits / 10 * 10 ^ (d.exponent.toNat + 1) := by
    rw [Nat.pow_succ', ← Nat.mul_assoc, Nat.div_mul_cancel (Nat.dvd_of_mod_eq_zero hzero)]
  rw [Decimal.inCell_iff hshift hexponent, hdigits] at hcell
  have hcoarser : Decimal.InCell ⟨d.digits / 10, d.exponent + 1⟩ k :=
    (Decimal.inCell_iff hshift (by dsimp only; omega)).mpr hcell
  have hle := hcoarser.exponent_le_shortest hk hfinite
  rw [hd] at hle
  dsimp only at hle
  omega

end DialogueScript.Number
