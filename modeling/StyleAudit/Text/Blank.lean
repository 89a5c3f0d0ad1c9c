import StyleAudit.Text.Printable

/-!
# White space

`isBlank` accepts the white space of Unicode together with the four
information separators; `trim` and `trimEnd` remove it at the ends of a text.
-/

namespace StyleAudit.Text

def blankRanges : List (Nat × Nat) :=
  [
    (0x9, 0xd), (0x1c, 0x20), (0x85, 0x85), (0xa0, 0xa0), (0x1680, 0x1680), (0x2000, 0x200a),
    (0x2028, 0x2029), (0x202f, 0x202f), (0x205f, 0x205f), (0x3000, 0x3000)]

def isBlank (c : Char) : Bool :=
  inRanges blankRanges c.toNat

def isInformationSeparator (c : Char) : Bool :=
  decide (0x1c ≤ c.toNat ∧ c.toNat ≤ 0x1f)

def trimEnd (text : String) : String :=
  String.ofList (text.toList.reverse.dropWhile isBlank).reverse

def trimList (drops : Char → Bool) (characters : List Char) : List Char :=
  ((characters.dropWhile drops).reverse.dropWhile drops).reverse

def trim (text : String) : String :=
  String.ofList (trimList isBlank text.toList)

def hasInk (text : String) : Bool :=
  text.toList.any fun c => !isBlank c

end StyleAudit.Text
