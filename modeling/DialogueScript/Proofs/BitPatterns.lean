import Mathlib
import DialogueScript.Number.Numeral

/-!
# Bit patterns of numbers

A number is its bit pattern, and the only pattern of a number that is none is the canonical one.  So
a number is known from its sign and its magnitude.

* `Number.toBits_ofBits`, `Number.ofBits_of_infinite_lt` — up to the infinite magnitude a pattern is
  that of its number, and past it all patterns are of one number;
* `Number.ofMagnitude_magnitude` — a number is the number of its sign and magnitude, up to the
  infinite one;
* `Number.eq_notANumber` — past the infinite magnitude there is one number.

The lemmas about floats that this rests on come with no part of Mathlib but the whole library.
-/

namespace DialogueScript.Number

open Float.Model (Format)
open Float.Model.UnpackedFloat

section

variable {bits : UInt64}

/-- Where the exponent has all its bits, the mantissa makes the pattern of a number that is none. -/
theorem infinite_lt_iff : infinite < bits.toNat % signBit ↔
    @unpackExponent .binary64 bits.toBitVec = -1#_ ∧
      @unpackMantissa .binary64 bits.toBitVec ≠ 0#_ := by
  have hlt : bits.toNat < 18446744073709551616 := bits.toNat_lt
  have hinfinite : infinite = 9218868437227405312 := rfl
  have hbit : signBit = 9223372036854775808 := rfl
  have hexponent : @unpackExponent .binary64 bits.toBitVec = -1#_ ↔
      bits.toNat / 4503599627370496 % 2048 = 2047 := by
    rw [← BitVec.toNat_inj]
    show bits.toNat >>> 52 % 2048 = 2047 ↔ _
    rw [Nat.shiftRight_eq_div_pow]
  have hmantissa : @unpackMantissa .binary64 bits.toBitVec = 0#_ ↔
      bits.toNat % 4503599627370496 = 0 := by
    rw [← BitVec.toNat_inj]
    show bits.toNat >>> 0 % 4503599627370496 = 0 ↔ _
    rw [Nat.shiftRight_zero]
  rw [ne_eq, hexponent, hmantissa, hinfinite, hbit]
  omega

/-- Up to the infinite magnitude a pattern is that of its number. -/
theorem toBits_ofBits (h : ¬ infinite < bits.toNat % signBit) :
    (Float.ofBits bits).toBits = bits := by
  have hvalid : Format.binary64.Valid bits.toBitVec :=
    ⟨fun he hm => absurd (infinite_lt_iff.mpr ⟨he, hm⟩) h⟩
  exact UInt64.toBitVec_inj.mp (pack_unpack_of_valid hvalid)

/-- All patterns past the infinite magnitude are of one number. -/
theorem ofBits_of_infinite_lt (h : infinite < bits.toNat % signBit) :
    Float.ofBits bits = notANumber := by
  obtain ⟨hexponent, hmantissa⟩ := infinite_lt_iff.mp h
  have hunpack : unpack .binary64 bits.toBitVec = .notANumber := by
    unfold unpack
    rw [if_pos hexponent, if_neg hmantissa]
  unfold Float.ofBits Float.Model.ofBits
  rw [hunpack]
  rfl

end

/-- Sign and magnitude make up the pattern. -/
theorem toBits_eq (x : Float) :
    x.toBits.toNat = (if isNegative x then signBit else 0) + magnitude x := by
  have hlt : x.toBits.toNat < 18446744073709551616 := x.toBits.toNat_lt
  have hbit : signBit = 9223372036854775808 := rfl
  unfold isNegative magnitude
  rw [hbit]
  by_cases hsign : 9223372036854775808 ≤ x.toBits.toNat
  · rw [if_pos (decide_eq_true hsign)]
    omega
  · rw [if_neg (mt of_decide_eq_true hsign)]
    omega

theorem ofMagnitude_magnitude {x : Float} (h : magnitude x ≤ infinite) :
    ofMagnitude (isNegative x) (magnitude x) = x := by
  unfold ofMagnitude
  rw [Nat.min_eq_left h, ← toBits_eq, UInt64.ofNat_toNat]
  exact x.ofBits_toBits

/-- Past the infinite magnitude there is one number. -/
theorem eq_notANumber {x : Float} (h : infinite < magnitude x) : x = notANumber := by
  rw [← x.ofBits_toBits]
  exact ofBits_of_infinite_lt h

end DialogueScript.Number
