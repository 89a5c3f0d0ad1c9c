/-!
# Overlong integers

Whole numbers may have any size, but converting one from or to decimal digits
is refused beyond a number of digits: `integerDigitLimit`. Numbers in other
bases and numbers with a fraction or an exponent have no such limit.
-/

namespace StyleAudit

/-- The number of decimal digits up to which integers are converted. -/
def integerDigitLimit : Nat := 4300

/-- An integer that is written with too many decimal digits. -/
structure OverlongInteger where
  digits : Nat
  deriving DecidableEq, Repr

namespace OverlongInteger

/-- Digits of this number are too many to be read. -/
def ofDigitCount? (digits : Nat) : Option OverlongInteger :=
  if integerDigitLimit < digits then some ⟨digits⟩ else none

def excess : String :=
  s!"Exceeds the limit ({integerDigitLimit} digits) for integer string conversion"

def advice : String := "use sys.set_int_max_str_digits() to increase the limit"

def message (number : OverlongInteger) : String :=
  s!"{excess}: value has {number.digits} digits; {advice}"

def writingMessage : String := s!"{excess}; {advice}"

end OverlongInteger

/-- The integer has more decimal digits than are written. -/
def exceedsDigitLimit (value : Nat) : Bool :=
  decide (Nat.pow 10 integerDigitLimit ≤ value)

end StyleAudit
