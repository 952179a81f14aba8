import Mathlib.Tactic.Ring
import Mathlib.Tactic.Linarith
import DialogueScript.Number.Shortest

/-!
# Rounding to a magnitude

The quotients that are read as one magnitude are those of its cell: they lie between the middles to
the two neighbours, where the middles belong to the even magnitude.

* `roundDiv_spec` — a whole number nearest to a quotient, a half going to the even one;
* `units_row` — the magnitudes of one binade and the first of the next one lie in a row;
* `InCell` — a quotient lies in the cell of a magnitude; `InCell.unique` — it lies in one only;
* `inCell_nearest` — a quotient lies in the cell of its nearest magnitude;
* `nearest_eq` — so the nearest magnitude is the one in whose cell the quotient lies.
-/

namespace DialogueScript.Number

theorem units_le_units {j k : Nat} (h : j ≤ k) : units j ≤ units k := by
  rcases Nat.lt_or_eq_of_le h with h | rfl
  · exact Nat.le_of_lt (units_lt_units h)
  · exact Nat.le_refl _

/-- Both sides of a quotient rounded to a whole number; at a half it is even. -/
structure RoundsTo (q num den : Nat) : Prop where
  high : 2 * num ≤ (2 * q + 1) * den
  low : 2 * q * den ≤ 2 * num + den
  half : 2 * num = (2 * q + 1) * den ∨ 2 * q * den = 2 * num + den → q % 2 = 0

theorem roundDiv_spec (num : Nat) {den : Nat} (hden : 0 < den) :
    RoundsTo (roundDiv num den) num den := by
  have hdiv := Nat.div_add_mod num den
  have hmod := Nat.mod_lt num hden
  unfold roundDiv
  dsimp only
  generalize num / den = a at *
  generalize num % den = r at *
  have hq (q : Nat) : 2 * q * den = 2 * (den * q) ∧ (2 * q + 1) * den = 2 * (den * q) + den :=
    ⟨by ring, by ring⟩
  have hsucc : den * (a + 1) = den * a + den := by ring
  split
  · obtain ⟨h1, h2⟩ := hq a
    exact ⟨by omega, by omega, by omega⟩
  · split
    · obtain ⟨h1, h2⟩ := hq (a + 1)
      exact ⟨by omega, by omega, by omega⟩
    · rcases Nat.mod_two_eq_zero_or_one a with heven | hodd
      · obtain ⟨h1, h2⟩ := hq a
        rw [heven, Nat.add_zero]
        exact ⟨by omega, by omega, fun _ => heven⟩
      · obtain ⟨h1, h2⟩ := hq (a + 1)
        rw [hodd]
        exact ⟨by omega, by omega, fun _ => by omega⟩

/-- The magnitudes of a binade, and the first one of the next, lie in a row. -/
theorem units_row {s q : Nat} (hq : q ≤ 2 * binade) (h : s = 0 ∨ binade ≤ q) :
    units (s * binade + q) = q <<< s := by
  unfold units
  by_cases hsmall : q < binade
  · obtain rfl : s = 0 := by omega
    rw [Nat.zero_mul, Nat.zero_add, if_pos hsmall, Nat.shiftLeft_zero]
  · rw [if_neg (by have := Nat.le_add_left q (s * binade); omega)]
    rw [Nat.add_comm (s * binade), Nat.add_mul_div_right _ _ (by decide),
      Nat.add_mul_mod_self_right]
    by_cases hlast : q = 2 * binade
    · have hdiv : q / binade = 2 := by rw [hlast]; decide
      have hmod : q % binade = 0 := by rw [hlast]; decide
      rw [hdiv, hmod, hlast, show 2 + s - 1 = s + 1 by omega, Nat.add_zero, Nat.shiftLeft_eq,
        Nat.shiftLeft_eq]
      ring
    · have hdiv : q / binade = 1 := Nat.div_eq_of_lt_le (by omega) (by omega)
      have hmod : binade + q % binade = q := by
        have := Nat.div_add_mod q binade
        rw [hdiv] at this
        omega
      rw [hdiv, hmod, show 1 + s - 1 = s by omega]

/-- The quotient `num / den` lies in the cell of the magnitude `k`. -/
structure InCell (k num den : Nat) : Prop where
  low : (units (k - 1) + units k) * den ≤ 2 * num
  high : 2 * num ≤ (units k + units (k + 1)) * den
  ends : (units (k - 1) + units k) * den = 2 * num ∨ 2 * num = (units k + units (k + 1)) * den →
    k % 2 = 0

namespace InCell

variable {j k num den : Nat}

theorem not_lt (hden : 0 < den) (hj : InCell j num den) (hk : InCell k num den) : ¬ j < k := by
  intro hlt
  have h1 : units j ≤ units (k - 1) := units_le_units (by omega)
  have h2 : units (j + 1) ≤ units k := units_le_units (by omega)
  -- the cells meet in a middle, which belongs to both
  have hmeet : (units j + units (j + 1)) * den = (units (k - 1) + units k) * den := by
    have hle : (units j + units (j + 1)) * den ≤ (units (k - 1) + units k) * den :=
      Nat.mul_le_mul_right den (by omega)
    have hlow := hk.low
    have hhigh := hj.high
    omega
  have hj0 : j % 2 = 0 := hj.ends (.inr (by have := hk.low; have := hj.high; omega))
  have hk0 : k % 2 = 0 := hk.ends (.inl (by have := hk.low; have := hj.high; omega))
  have hsum : units j + units (j + 1) = units (k - 1) + units k :=
    Nat.eq_of_mul_eq_mul_right hden hmeet
  have hnext : j + 1 < k := by omega
  have h3 : units (j + 1) < units k := units_lt_units hnext
  omega

theorem unique (hden : 0 < den) (hj : InCell j num den) (hk : InCell k num den) : j = k := by
  have h1 := hj.not_lt hden hk
  have h2 := hk.not_lt hden hj
  omega

/-- Numerator and denominator may have a common factor. -/
theorem mul_iff {t : Nat} (ht : 0 < t) : InCell k (t * num) (t * den) ↔ InCell k num den := by
  have hmul (a : Nat) : a * (t * den) = t * (a * den) := by ring
  have htwo : 2 * (t * num) = t * (2 * num) := by ring
  have hcancel {a b : Nat} : t * a = t * b ↔ a = b := Nat.mul_right_inj (Nat.ne_of_gt ht)
  constructor
  · rintro ⟨hlow, hhigh, hends⟩
    rw [hmul, htwo] at hlow hhigh
    rw [hmul, hmul, htwo, hcancel, hcancel] at hends
    exact ⟨Nat.le_of_mul_le_mul_left hlow ht, Nat.le_of_mul_le_mul_left hhigh ht, hends⟩
  · rintro ⟨hlow, hhigh, hends⟩
    refine ⟨?_, ?_, ?_⟩
    · rw [hmul, htwo]
      exact Nat.mul_le_mul_left t hlow
    · rw [hmul, htwo]
      exact Nat.mul_le_mul_left t hhigh
    · rwa [hmul, hmul, htwo, hcancel, hcancel]

end InCell

/-- A quotient that is rounded in steps of `1 <<< s` is in the binade of this step, or at its
upper end. -/
structure InBinade (s num den : Nat) : Prop where
  high : num < 2 * binade * (den <<< s)
  low : s = 0 ∨ binade * (den <<< s) ≤ num

theorem inBinade_log2 (num : Nat) {den : Nat} (hden : 0 < den) :
    InBinade ((num / den).log2 - 52) num den := by
  have hdiv := Nat.div_add_mod num den
  have hmod := Nat.mod_lt num hden
  generalize num / den = a at *
  generalize hs : a.log2 - 52 = s
  have hwide (n : Nat) : n * (den <<< s) = den * (n * 2 ^ s) := by rw [Nat.shiftLeft_eq]; ring
  have hpow : binade * 2 ^ s = 2 ^ (s + 52) := by rw [binade_eq, Nat.shiftLeft_eq]; ring
  have hpow2 : 2 * binade * 2 ^ s = 2 ^ (s + 53) := by rw [binade_eq, Nat.shiftLeft_eq]; ring
  constructor
  · have ha : a + 1 ≤ 2 ^ (s + 53) :=
      Nat.lt_log2_self.trans_le (Nat.pow_le_pow_right (by decide) (by omega))
    have hmul := Nat.mul_le_mul_left den ha
    rw [hwide, hpow2]
    rw [Nat.mul_add, Nat.mul_one] at hmul
    omega
  · rcases Nat.eq_zero_or_pos s with h | h
    · exact .inl h
    · have ha : 2 ^ (s + 52) ≤ a := by
        have hlog : s + 52 = a.log2 := by omega
        have hpos : a ≠ 0 := by rintro rfl; simp at hlog
        rw [hlog]
        exact Nat.log2_self_le hpos
      have hmul := Nat.mul_le_mul_left den ha
      rw [hwide, hpow]
      exact .inr (by omega)

/-- The rounded quotient does not leave the binade. -/
theorem InBinade.row {s q num den : Nat} (h : InBinade s num den)
    (hq : RoundsTo q num (den <<< s)) : q ≤ 2 * binade ∧ (s = 0 ∨ binade ≤ q) := by
  obtain ⟨hupper, hlower⟩ := h
  obtain ⟨hhigh, hlow, -⟩ := hq
  generalize den <<< s = step at *
  constructor
  · by_contra hgt
    have := Nat.mul_le_mul_right step (show 2 * (2 * binade) + 2 ≤ 2 * q by omega)
    nlinarith
  · refine hlower.imp_right fun hle => ?_
    by_contra hlt
    have := Nat.mul_le_mul_right step (show 2 * q + 2 ≤ 2 * binade by omega)
    nlinarith

section Neighbours

variable {r s q : Nat} (hr : r = s * binade + q) (hq : q ≤ 2 * binade) (hs : s = 0 ∨ binade ≤ q)

include hr hq hs

theorem units_row_mul (den : Nat) : units r * den = q * (den <<< s) := by
  rw [hr, units_row hq hs, Nat.shiftLeft_eq, Nat.shiftLeft_eq]
  ring

/-- The neighbour below is one step away, unless it lies in the binade below. -/
theorem units_pred_row (den : Nat) :
    units (r - 1) * den + den <<< s = q * (den <<< s) ∨ r = 0 ∨ s ≠ 0 ∧ q = binade := by
  rcases Nat.eq_zero_or_pos q with rfl | hpositive
  · obtain rfl : s = 0 := hs.resolve_right (by simp [binade])
    exact .inr (.inl (by omega))
  · by_cases hfirst : s = 0 ∨ binade ≤ q - 1
    · have hprev := units_row_mul (r := r - 1) (q := q - 1) (by omega) (by omega) hfirst den
      have hstep : q * (den <<< s) = (q - 1) * (den <<< s) + den <<< s := by
        rw [← Nat.succ_mul, Nat.succ_eq_add_one, Nat.sub_add_cancel hpositive]
      exact .inl (by omega)
    · exact .inr (.inr (by omega))

/-- The neighbour above is one step away, unless it lies in the binade above. -/
theorem units_succ_row (den : Nat) :
    units (r + 1) * den = q * (den <<< s) + den <<< s ∨ q = 2 * binade := by
  by_cases hlast : q + 1 ≤ 2 * binade
  · have hnext := units_row_mul (r := r + 1) (s := s) (q := q + 1) (by omega) hlast (by omega) den
    rw [Nat.succ_mul] at hnext
    exact .inl hnext
  · exact .inr (by omega)

end Neighbours

/-- A quotient lies in the cell of its nearest magnitude. -/
theorem inCell_nearest (num : Nat) {den : Nat} (hden : 0 < den) :
    InCell (nearest num den) num den := by
  unfold nearest
  have hbinade := inBinade_log2 num hden
  dsimp only
  generalize (num / den).log2 - 52 = s at *
  have hpos : 0 < den <<< s := by
    rw [Nat.shiftLeft_eq]
    exact Nat.mul_pos hden (Nat.two_pow_pos s)
  have hround := roundDiv_spec num hpos
  generalize roundDiv num (den <<< s) = q at *
  obtain ⟨hq, hs⟩ := hbinade.row hround
  obtain ⟨r, hr⟩ : ∃ r, r = s * binade + q := ⟨_, rfl⟩
  have hvalue := units_row_mul hr hq hs den
  have hbelow := units_pred_row hr hq hs den
  have habove := units_succ_row hr hq hs den
  have heven : r % 2 = q % 2 := by
    rw [hr, binade_eq, Nat.add_mod, Nat.mul_mod]
    simp
  rw [← hr]
  obtain ⟨hupper, hlower⟩ := hbinade
  obtain ⟨hhigh, hlow, hhalf⟩ := hround
  generalize den <<< s = step at *
  have hdouble : 2 * q * step = 2 * (q * step) := Nat.mul_assoc 2 q step
  have hodd : (2 * q + 1) * step = 2 * (q * step) + step := by ring
  have hbelow' : (units (r - 1) + units r) * den ≤ 2 * num ∧
      ((units (r - 1) + units r) * den = 2 * num → r % 2 = 0) := by
    rw [Nat.add_mul, hvalue]
    rcases hbelow with h | rfl | ⟨h, rfl⟩
    · exact ⟨by omega, fun he => by rw [heven]; exact hhalf (.inr (by omega))⟩
    · have hzero : units 0 = 0 := rfl
      rw [hzero] at hvalue ⊢
      omega
    · -- the step below is half as wide, so the quotient is farther from the neighbour
      have hnum := hlower.resolve_left h
      rcases Nat.eq_zero_or_pos r with rfl | hr
      · have hzero : units 0 = 0 := rfl
        rw [hzero] at hvalue ⊢
        omega
      · have := Nat.mul_lt_mul_of_pos_right (units_lt_units (show r - 1 < r by omega)) hden
        omega
  have habove' : 2 * num ≤ (units r + units (r + 1)) * den ∧
      (2 * num = (units r + units (r + 1)) * den → r % 2 = 0) := by
    rw [Nat.add_mul, hvalue]
    rcases habove with h | rfl
    · exact ⟨by omega, fun he => by rw [heven]; exact hhalf (.inl (by omega))⟩
    · have := Nat.mul_lt_mul_of_pos_right (units_lt_units (show r < r + 1 by omega)) hden
      omega
  exact ⟨hbelow'.1, habove'.1, fun h => h.elim hbelow'.2 habove'.2⟩

theorem nearest_eq {k num den : Nat} (hden : 0 < den) (h : InCell k num den) :
    nearest num den = k :=
  (inCell_nearest num hden).unique hden h

end DialogueScript.Number
