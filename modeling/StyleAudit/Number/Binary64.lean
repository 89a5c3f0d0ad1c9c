/-!
# Binary floating-point numbers

`Binary64` represents a double-precision number by its sign, its mantissa and
its exponent, so every operation is exact arithmetic on naturals and integers
followed by one rounding.

* `Binary64.ofRatio` rounds a quotient to the nearest double, ties to the even
  mantissa.
* `Binary64.equals`, `Binary64.less` compare the numbers meant; a NaN equals
  nothing and is below nothing.
* `Binary64.sub` is the correctly rounded difference.
-/

namespace StyleAudit

/-- A double-precision number. A finite one means `± mantissa · 2 ^ exponent`,
where zero has mantissa and exponent zero, and every other mantissa has 53
bits unless the exponent is the least one, `-1074`. -/
inductive Binary64
  | nan
  | infinite (negative : Bool)
  | finite (negative : Bool) (mantissa : Nat) (exponent : Int)
  deriving DecidableEq, Repr, Inhabited

namespace Binary64

def leastExponent : Int := -1074

def greatestExponent : Int := 971

def zero (negative : Bool) : Binary64 := .finite negative 0 0

/-- The quotient `numerator / denominator` rounded to an integer, a half going
to the even neighbour. -/
def roundHalfEven (numerator denominator : Nat) : Nat :=
  let quotient := numerator / denominator
  let doubled := 2 * (numerator % denominator)
  if doubled < denominator then quotient
  else if denominator < doubled then quotient + 1
  else quotient + quotient % 2

/-- Multiply the denominator by `2 ^ exponent`, or the numerator by its
inverse when the exponent is negative. -/
def dividedByPower (numerator denominator : Nat) (exponent : Int) : Nat × Nat :=
  if exponent < 0 then (numerator * Nat.pow 2 exponent.natAbs, denominator)
  else (numerator, denominator * Nat.pow 2 exponent.natAbs)

/-- The exponent for which `numerator / denominator / 2 ^ exponent` has 53
binary digits before the point, but never below the least exponent. -/
def exponentFor (numerator denominator : Nat) : Int :=
  let guess : Int := (numerator.log2 : Int) - denominator.log2 - 52
  let (scaled, unit) := dividedByPower numerator denominator guess
  max leastExponent (if scaled < unit * Nat.pow 2 52 then guess - 1 else guess)

/-- The double nearest to `± numerator / denominator`. -/
def ofRatio (negative : Bool) (numerator denominator : Nat) : Binary64 :=
  if numerator = 0 then zero negative
  else
    let exponent := exponentFor numerator denominator
    let (scaled, unit) := dividedByPower numerator denominator exponent
    let mantissa := roundHalfEven scaled unit
    if mantissa = 0 then zero negative
    else
      let (mantissa, exponent) :=
        if mantissa = Nat.pow 2 53 then (Nat.pow 2 52, exponent + 1) else (mantissa, exponent)
      if greatestExponent < exponent then .infinite negative
      else .finite negative mantissa exponent

def ofInt (value : Int) : Binary64 :=
  ofRatio (decide (value < 0)) value.natAbs 1

/-- The double nearest to `± digits · 10 ^ exponent`. Exponents far outside
the range of doubles are decided without forming the power. -/
def ofDecimal (negative : Bool) (digits : Nat) (exponent : Int) : Binary64 :=
  let size : Int := exponent + digits.log2 / 3
  if digits = 0 then zero negative
  else if 400 < exponent then .infinite negative
  else if size < -800 then zero negative
  else if exponent < 0 then ofRatio negative digits (Nat.pow 10 exponent.natAbs)
  else ofRatio negative (digits * Nat.pow 10 exponent.natAbs) 1

/-- The numerator, over the power of two in the second place, of a finite
double's exact value. -/
def exactRatio (negative : Bool) (mantissa : Nat) (exponent : Int) : Int × Nat :=
  let magnitude : Nat := if exponent < 0 then mantissa else mantissa * Nat.pow 2 exponent.natAbs
  (if negative then -(magnitude : Int) else magnitude,
    if exponent < 0 then Nat.pow 2 exponent.natAbs else 1)

/-- Both doubles mean the same number; a NaN means none. -/
def equals : Binary64 → Binary64 → Bool
  | .finite n m e, .finite n' m' e' =>
    let (a, b) := exactRatio n m e
    let (a', b') := exactRatio n' m' e'
    a * b' == a' * b
  | .infinite n, .infinite n' => n == n'
  | _, _ => false

/-- The double means exactly this integer. -/
def equalsInt : Binary64 → Int → Bool
  | .finite n m e, value =>
    let (a, b) := exactRatio n m e
    a == value * b
  | _, _ => false

/-- The first double is the smaller number; a NaN is not comparable. -/
def less : Binary64 → Binary64 → Bool
  | .finite n m e, .finite n' m' e' =>
    let (a, b) := exactRatio n m e
    let (a', b') := exactRatio n' m' e'
    decide (a * b' < a' * b)
  | .infinite negative, .finite .. => negative
  | .finite .., .infinite negative => !negative
  | .infinite n, .infinite n' => n && !n'
  | _, _ => false

def isNonPositive (x : Binary64) : Bool :=
  x.less (zero false) || x.equals (zero false)

/-- The difference rounded to the nearest double; equal finite numbers leave
a positive zero. -/
def sub : Binary64 → Binary64 → Binary64
  | .finite n m e, .finite n' m' e' =>
    let (a, b) := exactRatio n m e
    let (a', b') := exactRatio n' m' e'
    let difference := a * b' - a' * b
    ofRatio (decide (difference < 0)) difference.natAbs (b * b')
  | .infinite n, .infinite n' => if n = n' then .nan else .infinite n
  | .infinite n, .finite .. => .infinite n
  | .finite .., .infinite n => .infinite (!n)
  | _, _ => .nan

end Binary64
end StyleAudit
