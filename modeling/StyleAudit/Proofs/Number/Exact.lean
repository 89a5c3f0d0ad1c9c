import Mathlib.Algebra.Field.Rat
import Mathlib.Algebra.Field.Basic
import StyleAudit.Number.Binary64

/-!
# The numbers that doubles mean

A finite double means a rational number (`Binary64.rational`). Doubles are equal,
to each other or to an integer, when they mean the same number, whatever their
mantissas and exponents are.
-/

namespace StyleAudit.Binary64

variable {negative negative' : Bool} {mantissa mantissa' : Nat} {exponent exponent' : Int}

/-- The number that a finite double means. -/
def rational (negative : Bool) (mantissa : Nat) (exponent : Int) : ℚ :=
  (if negative then -1 else 1) * mantissa * 2 ^ exponent

theorem denominator_ne_zero (negative : Bool) (mantissa : Nat) (exponent : Int) :
    ((exactRatio negative mantissa exponent).2 : ℚ) ≠ 0 := by
  by_cases below : exponent < 0 <;> simp [exactRatio, below]

theorem exactRatio_eq (negative : Bool) (mantissa : Nat) (exponent : Int) :
    ((exactRatio negative mantissa exponent).1 : ℚ) / (exactRatio negative mantissa exponent).2 =
      rational negative mantissa exponent := by
  obtain ⟨size, rfl | rfl⟩ := exponent.eq_nat_or_neg
  · have notBelow : ¬(size : Int) < 0 := by omega
    cases negative <;> simp [exactRatio, rational, notBelow]
  · rcases Nat.eq_zero_or_pos size with rfl | positive
    · cases negative <;> simp [exactRatio, rational]
    · cases negative <;>
        simp [exactRatio, rational, positive, zpow_neg, div_eq_mul_inv]

theorem equals_finite_iff :
    (finite negative mantissa exponent).equals (finite negative' mantissa' exponent') = true ↔
      rational negative mantissa exponent = rational negative' mantissa' exponent' := by
  have nonzero := denominator_ne_zero negative mantissa exponent
  have nonzero' := denominator_ne_zero negative' mantissa' exponent'
  rw [← exactRatio_eq, ← exactRatio_eq, div_eq_div_iff nonzero nonzero']
  simp only [equals, beq_iff_eq]
  norm_cast

theorem equalsInt_finite_iff {value : Int} :
    (finite negative mantissa exponent).equalsInt value = true ↔
      rational negative mantissa exponent = value := by
  rw [← exactRatio_eq, div_eq_iff (denominator_ne_zero negative mantissa exponent)]
  simp only [equalsInt, beq_iff_eq]
  norm_cast

end StyleAudit.Binary64
