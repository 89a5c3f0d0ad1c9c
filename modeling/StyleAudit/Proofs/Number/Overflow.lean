import Mathlib.Data.Nat.Log
import Mathlib.Tactic.Positivity
import Mathlib.Tactic.Ring
import StyleAudit.Number.Binary64

/-!
# Integers beyond the doubles

The largest finite double is `2 ^ 1024 - 2 ^ 971`. The middle between it and `2 ^ 1024` rounds to
the even mantissa, which is that of `2 ^ 1024`, so the integers from this middle on have no finite
double (`Binary64.ofInt_infinite_iff`).
-/

namespace StyleAudit.Binary64

variable {numerator denominator top n : Nat} {negative : Bool}

/-- The least natural number whose nearest double is infinite. -/
def firstInfinite : Nat := 2 ^ 1024 - 2 ^ 970

theorem firstInfinite_eq : firstInfinite = (2 * 2 ^ 53 - 1) * 2 ^ 970 := by
  have power : 2 ^ 1024 = 2 ^ 54 * 2 ^ 970 := by rw [← pow_add]
  rw [firstInfinite, power]
  omega

theorem firstInfinite_pos : 0 < firstInfinite := by
  rw [firstInfinite_eq]
  positivity

/-- Below an even number, rounding reaches it from the middle on. -/
theorem roundHalfEven_eq_iff (even : top % 2 = 0) (below : numerator < top * denominator) :
    roundHalfEven numerator denominator = top ↔ (2 * top - 1) * denominator ≤ 2 * numerator := by
  have positive : 0 < denominator := Nat.pos_of_ne_zero (by rintro rfl; simp at below)
  have division := Nat.div_add_mod numerator denominator
  have remainderBelow := Nat.mod_lt numerator positive
  have quotientBelow : numerator / denominator < top := (Nat.div_lt_iff_lt_mul positive).mpr below
  simp only [roundHalfEven]
  generalize numerator / denominator = quotient at *
  generalize numerator % denominator = remainder at *
  rcases Nat.lt_or_ge (quotient + 1) top with far | near
  · -- the middle below `top` is a whole unit away
    have reach : (quotient + 2) * denominator ≤ top * denominator :=
      Nat.mul_le_mul_right denominator far
    have expanded : (2 * top - 1) * denominator = 2 * (top * denominator) - denominator := by
      rw [Nat.sub_mul, Nat.one_mul, Nat.mul_assoc]
    have product : (quotient + 2) * denominator = denominator * quotient + 2 * denominator := by
      ring
    constructor
    · intro reached
      split_ifs at reached <;> omega
    · intro
      omega
  · obtain rfl : top = quotient + 1 := by omega
    have expanded : (2 * (quotient + 1) - 1) * denominator =
        2 * (denominator * quotient) + denominator := by
      rw [show 2 * (quotient + 1) - 1 = 2 * quotient + 1 by omega]
      ring
    rw [expanded, ← division]
    split_ifs <;> omega

theorem roundHalfEven_ne_zero (positive : 0 < numerator / denominator) :
    roundHalfEven numerator denominator ≠ 0 := by
  simp only [roundHalfEven]
  split_ifs <;> omega

/-- An integer in units of its last kept digit has 53 digits. -/
theorem exponentFor_one (nonzero : n ≠ 0) : exponentFor n 1 = (n.log2 : Int) - 52 := by
  have lower := Nat.log2_self_le nonzero
  have log2_one : Nat.log2 1 = 0 := by decide
  rcases Nat.lt_or_ge n.log2 52 with small | large
  · have guessNegative : (n.log2 : Int) - 52 < 0 := by omega
    have distance : ((n.log2 : Int) - 52).natAbs = 52 - n.log2 := by omega
    have scaledUp : 2 ^ 52 ≤ n * 2 ^ (52 - n.log2) :=
      calc 2 ^ 52 = 2 ^ n.log2 * 2 ^ (52 - n.log2) := by
            rw [← pow_add, Nat.add_sub_cancel' small.le]
        _ ≤ n * 2 ^ (52 - n.log2) := Nat.mul_le_mul_right _ lower
    have kept : ¬n * Nat.pow 2 (52 - n.log2) < 1 * Nat.pow 2 52 := by
      simpa using scaledUp
    simp only [exponentFor, log2_one, Nat.cast_zero, Int.sub_zero, dividedByPower,
      if_pos guessNegative, distance, if_neg kept, leastExponent]
    omega
  · obtain ⟨size, isLog⟩ := Nat.exists_eq_add_of_le large
    have guess : ((52 + size : Nat) : Int) - 52 = size := by omega
    have guessNotNegative : ¬(size : Int) < 0 := by omega
    have kept : ¬n < 1 * Nat.pow 2 size * Nat.pow 2 52 := by
      rw [isLog, pow_add] at lower
      simp only [Nat.pow_eq]
      omega
    simp only [exponentFor, log2_one, Nat.cast_zero, Int.sub_zero, dividedByPower, isLog, guess,
      if_neg guessNotNegative, Int.natAbs_natCast, if_neg kept, leastExponent]
    omega

/-- A quotient rounds to an infinite double when its exponent is too large, or is the greatest one
and the mantissa is carried beyond it. -/
theorem ofRatio_infinite_iff {scaled unit : Nat} (nonzero : numerator ≠ 0)
    (inUnits : dividedByPower numerator denominator (exponentFor numerator denominator) =
      (scaled, unit)) :
    (∃ sign, ofRatio negative numerator denominator = .infinite sign) ↔
      roundHalfEven scaled unit ≠ 0 ∧
        (971 < exponentFor numerator denominator ∨
          exponentFor numerator denominator = 971 ∧
            roundHalfEven scaled unit = Nat.pow 2 53) := by
  -- the powers are named, since nothing depends on their digits
  obtain ⟨carry, isCarry⟩ : ∃ carry, Nat.pow 2 53 = carry := ⟨_, rfl⟩
  obtain ⟨start, isStart⟩ : ∃ start, Nat.pow 2 52 = start := ⟨_, rfl⟩
  obtain ⟨exponent, isExponent⟩ : ∃ exponent, exponentFor numerator denominator = exponent :=
    ⟨_, rfl⟩
  obtain ⟨mantissa, isMantissa⟩ : ∃ mantissa, roundHalfEven scaled unit = mantissa := ⟨_, rfl⟩
  rw [isExponent] at inUnits
  rw [ofRatio, isCarry, isStart, isExponent, if_neg nonzero]
  simp only [inUnits, isMantissa, greatestExponent, zero]
  by_cases isZero : mantissa = 0
  · simp [isZero]
  by_cases isCarried : mantissa = carry
  · by_cases isTooLarge : 971 < exponent + 1
    · have reached : 971 < exponent ∨ exponent = 971 := by omega
      simp [isZero, isCarried.symm, isTooLarge, reached]
    · have within : ¬971 < exponent ∧ exponent ≠ 971 := by omega
      simp [isZero, isCarried.symm, isTooLarge, within]
  · by_cases isTooLarge : 971 < exponent <;> simp [isZero, isCarried, isTooLarge]

/-- An integer has no finite double from the middle above the largest one on. -/
theorem ofInt_infinite_iff : (∃ sign, ofInt n = .infinite sign) ↔ firstInfinite ≤ n := by
  rcases Nat.eq_zero_or_pos n with rfl | positive
  · simp [ofInt, ofRatio, zero, firstInfinite_pos.ne']
  have nonzero : n ≠ 0 := positive.ne'
  have lower := Nat.log2_self_le nonzero
  have upper := Nat.lt_log2_self (n := n)
  have exponent := exponentFor_one nonzero
  obtain ⟨⟨scaled, unit⟩, inUnits⟩ : ∃ units, dividedByPower n 1 (exponentFor n 1) = units :=
    ⟨_, rfl⟩
  simp only [ofInt, Int.natAbs_natCast]
  rw [ofRatio_infinite_iff nonzero inUnits]
  rw [exponent] at inUnits ⊢
  rcases Nat.lt_or_ge n.log2 (53 + 970) with small | large
  · have below : n < 2 ^ 53 * 2 ^ 970 :=
      calc n < 2 ^ (n.log2 + 1) := upper
        _ ≤ 2 ^ (53 + 970) := pow_le_pow_right₀ (by decide) small
        _ = 2 ^ 53 * 2 ^ 970 := pow_add ..
    rw [firstInfinite_eq]
    omega
  obtain ⟨size, isLog⟩ := Nat.exists_eq_add_of_le (show 52 ≤ n.log2 by omega)
  have keeps : (n.log2 : Int) - 52 = size := by omega
  have notNegative : ¬(size : Int) < 0 := by omega
  obtain ⟨rfl, rfl⟩ : n = scaled ∧ 2 ^ size = unit := by
    simpa [keeps, dividedByPower, notNegative] using inUnits
  have belowTop : n < 2 ^ 53 * 2 ^ size := by
    have digits : n.log2 + 1 = 53 + size := by omega
    rwa [digits, pow_add] at upper
  rcases eq_or_ne size 971 with rfl | isOther
  · have half : 2 ^ 971 = 2 * 2 ^ 970 := by rw [← pow_succ']
    have middle := roundHalfEven_eq_iff (by decide) belowTop
    rw [firstInfinite_eq, Nat.pow_eq]
    omega
  · have atLeast : firstInfinite ≤ n :=
      calc firstInfinite ≤ 2 ^ 1024 := Nat.sub_le ..
        _ ≤ 2 ^ n.log2 := pow_le_pow_right₀ (by decide) (by omega)
        _ ≤ n := lower
    have quotientPositive : 0 < n / 2 ^ size := by
      rw [isLog, pow_add] at lower
      exact Nat.div_pos (by omega) (Nat.two_pow_pos size)
    have notZero := roundHalfEven_ne_zero quotientPositive
    have tooLarge : 971 < (n.log2 : Int) - 52 := by omega
    exact iff_of_true ⟨notZero, .inl tooLarge⟩ atLeast

end StyleAudit.Binary64
