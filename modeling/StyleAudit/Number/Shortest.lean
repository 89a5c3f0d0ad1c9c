import StyleAudit.Number.Binary64

/-!
# Decimal text of floating-point numbers

* `Binary64.shortest` is the decimal with the fewest digits that reads back as
  the same double, the nearest of those.
* `Binary64.rounded` is the decimal with a given number of significant digits.
* `Layout` collects the choices of a written form: `Layout.plain` is the form
  of a number in messages and answers, `Layout.general` the six-digit form of
  a time budget.
-/

namespace StyleAudit

/-- A positive decimal `0.d₁d₂… · 10 ^ point`. -/
structure Decimal where
  digits : List Nat
  point : Int
  deriving DecidableEq, Repr

namespace Decimal

def digitsOf (n : Nat) : List Nat :=
  (Nat.toDigits 10 n).map fun c => c.toNat - '0'.toNat

/-- The place `k` for which `10 ^ (k - 1) ≤ numerator / denominator < 10 ^ k`. -/
def placeOf (numerator denominator : Nat) : Int :=
  let difference : Int := (digitsOf numerator).length - (digitsOf denominator).length
  let (top, bottom) :=
    if difference < 0 then (numerator * Nat.pow 10 difference.natAbs, denominator)
    else (numerator, denominator * Nat.pow 10 difference.natAbs)
  if bottom ≤ top then difference + 1 else difference

/-- `numerator / denominator` counted in units of `10 ^ unit`, as a quotient. -/
def inUnits (numerator denominator : Nat) (unit : Int) : Nat × Nat :=
  if unit < 0 then (numerator * Nat.pow 10 unit.natAbs, denominator)
  else (numerator, denominator * Nat.pow 10 unit.natAbs)

def dropTrailingZeros (digits : List Nat) : List Nat :=
  (digits.reverse.dropWhile (· == 0)).reverse

/-- The decimal `count · 10 ^ unit`, without zeros at its end. -/
def ofCount (count : Nat) (unit : Int) : Decimal :=
  let digits := digitsOf count
  ⟨dropTrailingZeros digits, digits.length + unit⟩

/-- The decimal of `size` significant digits nearest to a positive quotient. -/
def nearest (size : Nat) (numerator denominator : Nat) : Decimal :=
  let unit := placeOf numerator denominator - size
  let (top, bottom) := inUnits numerator denominator unit
  ofCount (Binary64.roundHalfEven top bottom) unit

end Decimal

namespace Binary64

/-- A closed or open interval around a double: the reals that round to it.
The ends are quotients over one denominator. -/
structure Basin where
  low : Nat
  high : Nat
  denominator : Nat
  closed : Bool

/-- The reals that round to a finite double. Below a power of two the gap is
half as wide, and the ends belong to the doubles of even mantissa. -/
def basin (mantissa : Nat) (exponent : Int) : Basin :=
  let narrow := mantissa = Nat.pow 2 52 ∧ leastExponent < exponent
  let scale : Nat := if exponent < 0 then 1 else Nat.pow 2 exponent.natAbs
  { low := (4 * mantissa - if narrow then 1 else 2) * scale
    high := (4 * mantissa + 2) * scale
    denominator := if exponent < 0 then 4 * Nat.pow 2 exponent.natAbs else 4
    closed := mantissa % 2 == 0 }

/-- The decimal `count · 10 ^ unit` lies in the basin. -/
def Basin.contains (b : Basin) (count : Nat) (unit : Int) : Bool :=
  let (top, bottom) :=
    if unit < 0 then (count * b.denominator, Nat.pow 10 unit.natAbs)
    else (count * b.denominator * Nat.pow 10 unit.natAbs, 1)
  let low := b.low * bottom
  let high := b.high * bottom
  if b.closed then decide (low ≤ top ∧ top ≤ high) else decide (low < top ∧ top < high)

/-- The neighbour of the value on the grid of `10 ^ unit` that reads back as
the double, the nearer one when both do. -/
def gridHit? (b : Basin) (numerator denominator : Nat) (unit : Int) : Option Nat :=
  let (top, bottom) := Decimal.inUnits numerator denominator unit
  let below := top / bottom
  let near := roundHalfEven top bottom
  let far := if near = below then below + 1 else below
  if b.contains near unit then some near
  else if b.contains far unit then some far
  else none

/-- The first grid, from `size` digits up to seventeen, with a point that
reads back; seventeen digits always do. -/
def shortestFrom (b : Basin) (numerator denominator : Nat) (place : Int) :
    (fuel size : Nat) → Decimal
  | 0, size => Decimal.nearest size numerator denominator
  | fuel + 1, size =>
    match gridHit? b numerator denominator (place - size) with
    | some count => Decimal.ofCount count (place - size)
    | none => shortestFrom b numerator denominator place fuel (size + 1)

/-- The decimal of fewest digits that reads back as `mantissa · 2 ^ exponent`. -/
def shortest (mantissa : Nat) (exponent : Int) : Decimal :=
  let (numerator, denominator) := exactRatio false mantissa exponent
  shortestFrom (basin mantissa exponent) numerator.natAbs denominator
    (Decimal.placeOf numerator.natAbs denominator) 16 1

/-- The decimal of `size` significant digits nearest to `mantissa · 2 ^ exponent`. -/
def rounded (size mantissa : Nat) (exponent : Int) : Decimal :=
  let (numerator, denominator) := exactRatio false mantissa exponent
  Decimal.nearest size numerator.natAbs denominator

end Binary64

/-- The choices of a written form of numbers. -/
structure Layout where
  /-- The significant digits kept, or none to keep the shortest ones. -/
  precision : Option Nat
  /-- The least exponent written in positional notation. -/
  leastPositional : Int
  /-- The first exponent that is too large for positional notation. -/
  firstScientific : Int
  /-- What follows the digits of a whole number. -/
  wholeSuffix : String

/-- The fewest digits that read back; positional from `10 ^ -4` up to below
`10 ^ 16`; a whole number keeps one zero after the point. -/
def Layout.plain : Layout := ⟨none, -4, 16, ".0"⟩

/-- Six significant digits, positional from `10 ^ -4` up to below `10 ^ 6`,
without zeros at the end. -/
def Layout.general : Layout := ⟨some 6, -4, 6, ""⟩

namespace Layout

def digitText (digits : List Nat) : String :=
  String.ofList (digits.map Nat.digitChar)

def exponentText (exponent : Int) : String :=
  let size := toString exponent.natAbs
  (if exponent < 0 then "-" else "+") ++ (if size.length < 2 then "0" ++ size else size)

/-- Positional or scientific notation of a positive decimal. -/
def decimalText (layout : Layout) (d : Decimal) : String :=
  let exponent := d.point - 1
  if exponent < layout.leastPositional || layout.firstScientific ≤ exponent then
    let tail := d.digits.drop 1
    digitText (d.digits.take 1) ++ (if tail.isEmpty then "" else "." ++ digitText tail)
      ++ "e" ++ exponentText exponent
  else if d.point ≤ 0 then
    "0." ++ digitText (List.replicate d.point.natAbs 0 ++ d.digits)
  else
    let whole := d.point.natAbs
    let padded := d.digits ++ List.replicate (whole - d.digits.length) 0
    let tail := padded.drop whole
    digitText (padded.take whole)
      ++ (if tail.isEmpty then layout.wholeSuffix else "." ++ digitText tail)

def text (layout : Layout) : Binary64 → String
  | .nan => "nan"
  | .infinite negative => if negative then "-inf" else "inf"
  | .finite negative mantissa exponent =>
    let sign := if negative then "-" else ""
    if mantissa = 0 then sign ++ "0" ++ layout.wholeSuffix
    else
      let decimal := match layout.precision with
        | none => Binary64.shortest mantissa exponent
        | some size => Binary64.rounded size mantissa exponent
      sign ++ layout.decimalText decimal

end Layout
end StyleAudit
