/-!
# Magnitudes of double-precision numbers

Without its sign, a number is the low sixty-three bits of its pattern.  These bits, read as a
natural number, are the *magnitude*: magnitudes count the non-negative values in order.  Every
finite value is a whole number of *units* of `2 ^ (-1074)`, so all comparisons of values are made
in natural numbers.

* `units` — the value of a magnitude in units;
* `nearest` — the magnitude nearest to a quotient of units, a tie going to the even one;
* `units_lt_units` — greater magnitudes have greater values.
-/

namespace DialogueScript.Number

/-- The number of magnitudes from one power of two to the next: `2 ^ 52`. -/
abbrev binade : Nat := 4503599627370496

/-- The first magnitude that is no finite value. -/
def infinite : Nat := 0x7FF * binade

/-- The sign bit of a pattern. -/
def signBit : Nat := 1 <<< 63

/-- The value of a magnitude in units.  Past the finite values the same rule goes on. -/
def units (k : Nat) : Nat :=
  if k < binade then k else (binade + k % binade) <<< (k / binade - 1)

/-- The whole number nearest to `num / den`, a half going to the even neighbour. -/
def roundDiv (num den : Nat) : Nat :=
  let q := num / den
  let r := num % den
  if 2 * r < den then q else if den < 2 * r then q + 1 else q + q % 2

/-- The magnitude whose value is nearest to `num / den` units, a tie going to the even magnitude.
A quotient of `2 ^ 53` or more is rounded in the steps of its binade. -/
def nearest (num den : Nat) : Nat :=
  let s := (num / den).log2 - 52
  s * binade + roundDiv num (den <<< s)

/-- The magnitude of a number. -/
def magnitude (x : Float) : Nat := x.toBits.toNat % signBit

def isNegative (x : Float) : Bool := decide (signBit ≤ x.toBits.toNat)

/-- The number with the given sign and magnitude; a magnitude past the finite ones is infinite. -/
def ofMagnitude (negative : Bool) (k : Nat) : Float :=
  Float.ofBits (UInt64.ofNat ((if negative then signBit else 0) + min k infinite))

theorem units_of_lt {k : Nat} (h : k < binade) : units k = k := by
  simp [units, h]

theorem binade_eq : binade = 1 <<< 52 := rfl

/-- From one magnitude to the next the value grows by a step, the same all through a binade. -/
theorem units_succ (k : Nat) : units (k + 1) = units k + 1 <<< (k / binade - 1) := by
  simp only [units, binade, Nat.shiftLeft_eq, Nat.one_mul]
  by_cases h1 : k + 1 < 4503599627370496
  · have hd : k / 4503599627370496 = 0 := by omega
    rw [if_pos h1, if_pos (by omega), hd]
  · by_cases h2 : k < 4503599627370496
    · obtain rfl : k = 4503599627370495 := by omega
      rfl
    · rw [if_neg h1, if_neg h2]
      by_cases h3 : k % 4503599627370496 + 1 < 4503599627370496
      · rw [show (k + 1) / 4503599627370496 = k / 4503599627370496 by omega,
          show (k + 1) % 4503599627370496 = k % 4503599627370496 + 1 by omega,
          ← Nat.add_assoc, Nat.add_mul, Nat.one_mul]
      · obtain ⟨e, he⟩ : ∃ e, k / 4503599627370496 = e + 1 :=
          ⟨k / 4503599627370496 - 1, by omega⟩
        rw [show (k + 1) / 4503599627370496 = e + 2 by omega,
          show (k + 1) % 4503599627370496 = 0 by omega,
          show k % 4503599627370496 = 4503599627370495 by omega, he,
          show e + 2 - 1 = e + 1 by omega, show e + 1 - 1 = e by omega, Nat.pow_succ]
        omega

theorem units_lt_units {j k : Nat} (h : j < k) : units j < units k := by
  induction k with
  | zero => omega
  | succ k ih =>
    have hp : 0 < 1 <<< (k / binade - 1) := by
      rw [Nat.shiftLeft_eq, Nat.one_mul]
      exact Nat.two_pow_pos _
    rw [units_succ]
    by_cases hj : j = k
    · subst hj; omega
    · have := ih (by omega)
      omega

end DialogueScript.Number
