import StyleAudit.Text.Units

/-!
# The order of texts

Texts are compared by the codes that they hold, so that the half of a pair
comes where its own code stands and not where its mark does. Texts that hold
the same codes are compared by their characters.
-/

namespace StyleAudit.Text

/-- The order of codes, as a test: the first ones that differ decide, and a
beginning comes before the whole. -/
def inCodeOrder : List Nat → List Nat → Bool
  | [], _ => true
  | _ :: _, [] => false
  | a :: as, b :: bs => decide (a < b) || (a == b && inCodeOrder as bs)

/-- The order of texts by code, as a test. -/
def codesAtMost (a b : String) : Bool :=
  inCodeOrder (codes a) (codes b)

/-- The order of texts, as a test. -/
def atMost (a b : String) : Bool :=
  if codes a = codes b then decide (a ≤ b) else codesAtMost a b

/-- The texts in order, each once. -/
def sortedDistinct (texts : List String) : List String :=
  (texts.mergeSort atMost).eraseDups

end StyleAudit.Text
