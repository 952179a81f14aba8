import DialogueScript.Proofs.Histories
import DialogueScript.Proofs.KindBlind

/-!
# What is equal

Two numbers are compared as numbers, all other values by their texts.  The two ways agree, because
different numbers have different texts, but for two pairs: a number that is none has the text of
itself and is not equal to itself, and the two zeros are equal and have different texts.  Without
these, a value is equal to exactly those that look like it.

* `Value.IsNaN` — the value is the number that is none; `Value.OppositeZeros` is from `Histories`;
* `Operator.equal_eq_display`, `Operator.equal_of_isNaN`, `Operator.equal_of_oppositeZeros` — the
  three cases;
* `Operator.equal_comm` — the order of the operands does not matter;
* `Value.Regular`, `Operator.equal_iff_of_regular` — the values on which equality is that of texts;
* `Operator.equals_compares_displays` — **`==` is the comparison of texts but for two pairs, is
  symmetric, and an equivalence of regular values**.
-/

namespace DialogueScript

/-! ## The two exceptions -/

/-- The value is the number that is none. -/
def Value.IsNaN : Value → Prop
  | .number x => x.isNaN = true
  | .text _ => False

theorem Value.isNaN_iff {v : Value} : v.IsNaN ↔ v = .number Float.nan := by
  cases v with
  | number x =>
    show x.isNaN = true ↔ _
    rw [Float.isNaN_eq_decide_eq_nan, decide_eq_true_iff, Value.number.injEq]
  | text s =>
    constructor
    · intro h
      cases h
    · intro h
      cases h

theorem Value.OppositeZeros.symm {v w : Value} (h : v.OppositeZeros w) : w.OppositeZeros v := by
  rcases h with ⟨hv, hw⟩ | ⟨hv, hw⟩
  · exact .inr ⟨hw, hv⟩
  · exact .inl ⟨hw, hv⟩

/-- The zeros differ, so their texts do. -/
theorem Value.OppositeZeros.display_ne {v w : Value} (h : v.OppositeZeros w) :
    v.display ≠ w.display := by
  intro heq
  refine h.ne ?_
  rcases h with ⟨rfl, rfl⟩ | ⟨rfl, rfl⟩
  · exact congrArg Value.number (Number.display_injective heq)
  · exact congrArg Value.number (Number.display_injective heq)

namespace Operator

variable {v w : Value}

theorem equal_of_isNaN (hv : v.IsNaN) (hw : w.IsNaN) : equal v w = false := by
  rw [Value.isNaN_iff] at hv hw
  subst hv hw
  rw [← Bool.not_eq_true]
  intro h
  exact (Float.beq_iff_ne_nan_and_eq.mp h).1 rfl

theorem equal_of_oppositeZeros (h : v.OppositeZeros w) : equal v w = true := by
  have hsame := h.same
  rcases h with ⟨rfl, rfl⟩ | ⟨rfl, rfl⟩
  · exact hsame
  · exact hsame

/-- Numbers that are no exception are equal if they are the same. -/
theorem equal_number_iff {x y : Float}
    (hnan : ¬ ((Value.number x).IsNaN ∧ (Value.number y).IsNaN))
    (hzeros : ¬ (Value.number x).OppositeZeros (.number y)) :
    equal (.number x) (.number y) = true ↔ x = y := by
  constructor
  · intro h
    have hsame : (Value.number x).same (.number y) = true := h
    rcases Value.eq_or_oppositeZeros_of_same hsame with heq | hopposite
    · exact Value.number.inj heq
    · exact absurd hopposite hzeros
  · rintro rfl
    have hx : x ≠ Float.nan := by
      rintro rfl
      exact hnan ⟨Value.isNaN_iff.mpr rfl, Value.isNaN_iff.mpr rfl⟩
    exact Float.beq_iff_ne_nan_and_eq.mpr ⟨hx, hx, .inl rfl⟩

/-! ## Texts -/

/-- All other values are equal if they look the same. -/
theorem equal_eq_display (hnan : ¬ (v.IsNaN ∧ w.IsNaN)) (hzeros : ¬ v.OppositeZeros w) :
    equal v w = (v.display == w.display) := by
  cases v with
  | text s => exact equal_of_text (.inl rfl)
  | number x =>
    cases w with
    | text t => exact equal_of_text (.inr rfl)
    | number y =>
      rw [Bool.eq_iff_iff, equal_number_iff hnan hzeros, beq_iff_eq]
      exact Number.display_injective.eq_iff.symm

theorem equal_comm (v w : Value) : equal v w = equal w v := by
  by_cases hnan : v.IsNaN ∧ w.IsNaN
  · rw [equal_of_isNaN hnan.1 hnan.2, equal_of_isNaN hnan.2 hnan.1]
  · by_cases hzeros : v.OppositeZeros w
    · rw [equal_of_oppositeZeros hzeros, equal_of_oppositeZeros hzeros.symm]
    · have hnan' : ¬ (w.IsNaN ∧ v.IsNaN) := fun h => hnan h.symm
      have hzeros' : ¬ w.OppositeZeros v := fun h => hzeros h.symm
      rw [equal_eq_display hnan hzeros, equal_eq_display hnan' hzeros', BEq.comm]

end Operator

/-! ## An equivalence -/

/-- The value is neither the number that is none nor negative zero. -/
structure Value.Regular (v : Value) : Prop where
  not_isNaN : ¬ v.IsNaN
  ne_negativeZero : v ≠ .number (-0)

theorem Value.Regular.not_oppositeZeros {v w : Value} (hv : v.Regular) (hw : w.Regular) :
    ¬ v.OppositeZeros w := by
  rintro (⟨-, heq⟩ | ⟨heq, -⟩)
  · exact hw.ne_negativeZero heq
  · exact hv.ne_negativeZero heq

namespace Operator

variable {v w : Value}

/-- Regular values are equal if and only if they look the same. -/
theorem equal_iff_of_regular (hv : v.Regular) (hw : w.Regular) :
    equal v w = true ↔ v.display = w.display := by
  rw [equal_eq_display (fun hnan => hv.not_isNaN hnan.1) (hv.not_oppositeZeros hw), beq_iff_eq]

theorem equal_equivalence :
    Equivalence fun v w : {v : Value // v.Regular} => equal v.1 w.1 = true where
  refl v := (equal_iff_of_regular v.2 v.2).mpr rfl
  symm {v w} h := (equal_comm w.1 v.1).trans h
  trans {u v w} huv hvw := by
    rw [equal_iff_of_regular u.2 v.2] at huv
    rw [equal_iff_of_regular v.2 w.2] at hvw
    exact (equal_iff_of_regular u.2 w.2).mpr (huv.trans hvw)

/-- A text that looks like zero is equal to zero, but not to negative zero, which is equal to it. -/
example : equal (.text "0") (.number 0) = true ∧ equal (.number 0) (.number (-0)) = true ∧
    equal (.text "0") (.number (-0)) = false := by decide

theorem apply_equals_iff (span : Option Span) :
    equals.apply v w span = .ok (.text "True") ↔ equal v w = true := by
  cases h : equal v w <;> simp [apply, Value.ofBool, h]

/-- **Equality is that of texts, but for two pairs of numbers.**  The number that is none looks like
itself and is not equal to itself; the two zeros look different and are equal.  The order of the
operands does not matter, and among regular values equality is an equivalence. -/
theorem equals_compares_displays (span : Option Span) :
    (∀ v w : Value, ¬ (v.IsNaN ∧ w.IsNaN) → ¬ v.OppositeZeros w →
      equals.apply v w span = .ok (.ofBool (v.display == w.display))) ∧
    (∀ v w : Value, v.IsNaN → w.IsNaN →
      v.display = w.display ∧ equals.apply v w span = .ok (.text "False")) ∧
    (∀ v w : Value, v.OppositeZeros w →
      v.display ≠ w.display ∧ equals.apply v w span = .ok (.text "True")) ∧
    (∀ v w : Value, equals.apply v w span = equals.apply w v span) ∧
    Equivalence fun v w : {v : Value // v.Regular} =>
      equals.apply v.1 w.1 span = .ok (.text "True") := by
  refine ⟨fun v w hnan hzeros => ?_, fun v w hv hw => ⟨?_, ?_⟩, fun v w h => ⟨h.display_ne, ?_⟩,
    fun v w => ?_, ?_⟩
  · show Except.ok (Value.ofBool (equal v w)) = _
    rw [equal_eq_display hnan hzeros]
  · rw [Value.isNaN_iff.mp hv, Value.isNaN_iff.mp hw]
  · show Except.ok (Value.ofBool (equal v w)) = _
    rw [equal_of_isNaN hv hw]
    rfl
  · exact (apply_equals_iff span).mpr (equal_of_oppositeZeros h)
  · show Except.ok (Value.ofBool (equal v w)) = Except.ok (Value.ofBool (equal w v))
    rw [equal_comm]
  · simp only [apply_equals_iff]
    exact equal_equivalence

end Operator

end DialogueScript
