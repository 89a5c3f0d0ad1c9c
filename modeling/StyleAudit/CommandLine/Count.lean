import StyleAudit.Number.Overlong
import StyleAudit.Text.Blank
import StyleAudit.Text.Digit

/-!
# Counts

`Count.read?` reads a positive integer from the value of an option:

* white space may stand around it, but no information separators, and a plus
  sign before it;
* zeros at its beginning do not count, nor do underscores among them;
* a point with nothing but zeros after it is left out;
* single underscores may separate the digits, of which there are not more than
  integers are converted from.
-/

namespace StyleAudit.Count

/-- White space that may stand around a count. -/
def isMargin (c : Char) : Bool :=
  Text.isBlank c && !Text.isInformationSeparator c

def dropPlus : List Char → List Char
  | '+' :: rest => rest
  | input => input

/-- The text without zeros at its beginning and underscores after them. -/
def dropLeadingZeros : List Char → List Char
  | '0' :: rest => rest.dropWhile fun c => c == '0' || c == '_'
  | input => input

/-- The text without its first point, if only zeros follow. -/
def dropZeroFraction (input : List Char) : List Char :=
  if ((input.dropWhile (· != '.')).drop 1).all (· == '0') then input.takeWhile (· != '.')
  else input

/-- Characters with single underscores between them, without these. -/
def dropUnderscores? : List Char → Option (List Char)
  | [] => none
  | [c] => if c = '_' then none else some [c]
  | '_' :: _ => none
  | c :: '_' :: rest => (dropUnderscores? rest).map (c :: ·)
  | c :: rest => (dropUnderscores? rest).map (c :: ·)

/-- The digits of the count that a text writes, without zeros at the
beginning. -/
def digits? (text : String) : Option (List Char) :=
  let significant := dropLeadingZeros (dropPlus (Text.trimList isMargin text.toList))
  (dropUnderscores? (dropZeroFraction significant)).filter (·.all Char.isDigit)

def read? (text : String) : Option Nat :=
  match digits? text with
  | none => none
  | some digits =>
    if (OverlongInteger.ofDigitCount? digits.length).isSome then none
    else Text.readDecimals? digits

end StyleAudit.Count
