import StyleAudit.Document.Value

/-!
# Literals

A literal is a document value that holds no others.

* `Literal.equals` compares literals as numbers where it can, so that true,
  `1` and `1.0` are equal, and a NaN is equal to nothing.
* `Literal.same` also takes a NaN for the same as itself.
-/

namespace StyleAudit

/-- A value without parts. -/
inductive Literal
  | null
  | bool (value : Bool)
  | int (value : Int)
  | float (value : Binary64)
  | text (value : String)
  deriving DecidableEq, Repr, Inhabited

namespace Literal

def ofValue? : Value → Option Literal
  | .null => some null
  | .bool value => some (bool value)
  | .int value => some (int value)
  | .float value => some (float value)
  | .text value => some (text value)
  | .moment _ | .list _ | .table _ => none

def toValue : Literal → Value
  | null => .null
  | bool value => .bool value
  | int value => .int value
  | float value => .float value
  | text value => .text value

/-- The integer that a literal counts as; true counts as one and false as
zero. -/
def integer? : Literal → Option Int
  | bool value => some (if value then 1 else 0)
  | int value => some value
  | _ => none

/-- Equality of literals: numbers and truth values by the number they count
as, all else by what it is. -/
def equals : Literal → Literal → Bool
  | null, null => true
  | text a, text b => a == b
  | float x, float y => x.equals y
  | float x, other => other.integer?.any x.equalsInt
  | other, float x => other.integer?.any x.equalsInt
  | a, b => a.integer?.any fun i => b.integer? == some i

/-- Equality of literals that also takes a NaN for the same as itself. -/
def same : Literal → Literal → Bool
  | float .nan, float .nan => true
  | a, b => a.equals b

def display (l : Literal) : String := l.toValue.display

def plainText (l : Literal) : String := l.toValue.plainText

end Literal

end StyleAudit
