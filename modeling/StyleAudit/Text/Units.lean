/-!
# 16-bit units

A character beyond the first 65536 code points is written by two 16-bit units,
the halves of a surrogate pair; any other is its own unit. An escape in a
document may name a half alone, which is no character. A text holds such a
half as a mark, the last of all code points, and a character that stands for
the half; the mark itself is held twice, so that nothing is mistaken for a
half.

* `ofCodes` is the text that holds some codes, and `codes` gives them back.
* `hold` and `released` lead from plain characters to a text and back.
* `units` gives the units of a code, `halved` a text of single units.
-/

namespace StyleAudit.Text

/-- The code of the first half of a pair. -/
def isHighHalf (code : Nat) : Bool := decide (0xd800 ≤ code ∧ code ≤ 0xdbff)

def isLowHalf (code : Nat) : Bool := decide (0xdc00 ≤ code ∧ code ≤ 0xdfff)

/-- The code point that two halves write. -/
def joinHalves (high low : Nat) : Nat :=
  0x10000 + (high - 0xd800) * 0x400 + (low - 0xdc00)

/-! ## Codes in a text -/

/-- The character before one that stands for a half. -/
def halfMark : Char := Char.ofNat 0x10ffff

/-- The distance from a half to the character that stands for it. -/
def halfShift : Nat := 0x800

/-- The characters that hold a code. -/
def heldCode (code : Nat) : List Char :=
  if isHighHalf code || isLowHalf code then [halfMark, Char.ofNat (code + halfShift)]
  else if code = halfMark.toNat then [halfMark, halfMark]
  else [Char.ofNat code]

def heldCodes : List Char → List Nat
  | [] => []
  | [c] => [c.toNat]
  | c :: d :: rest =>
    if c ≠ halfMark then c.toNat :: heldCodes (d :: rest)
    else (if d = halfMark then c.toNat else d.toNat - halfShift) :: heldCodes rest

/-- The text that holds some codes. -/
def ofCodes (codes : List Nat) : String :=
  String.ofList (codes.flatMap heldCode)

/-- The codes that a text holds. -/
def codes (text : String) : List Nat :=
  heldCodes text.toList

def hold (characters : List Char) : String :=
  ofCodes (characters.map (·.toNat))

/-- The characters that a text holds. -/
def released (text : String) : String :=
  String.ofList ((codes text).map Char.ofNat)

/-! ## Units -/

def units (code : Nat) : List Nat :=
  if code < 0x10000 then [code]
  else [0xd800 + (code - 0x10000) / 0x400, 0xdc00 + (code - 0x10000) % 0x400]

/-- The text with every character of two units taken apart. -/
def halved (text : String) : String :=
  ofCodes ((codes text).flatMap units)

/-! ## Laws -/

theorem toNat_ofNat_of_valid {code : Nat} (valid : code.isValidChar) :
    (Char.ofNat code).toNat = code := by
  rw [Char.ofNat, dif_pos valid]
  rfl

theorem toNat_halfMark : halfMark.toNat = 0x10ffff :=
  toNat_ofNat_of_valid (by decide)

theorem ofNat_ne_halfMark {code : Nat} (valid : code.isValidChar) (other : code ≠ 0x10ffff) :
    Char.ofNat code ≠ halfMark := fun equal =>
  other (by rw [← toNat_ofNat_of_valid valid, equal, toNat_halfMark])

theorem heldCodes_cons {c : Char} (plain : c ≠ halfMark) (rest : List Char) :
    heldCodes (c :: rest) = c.toNat :: heldCodes rest := by
  cases rest with
  | nil => rfl
  | cons d rest => simp [heldCodes, plain]

/-- What holds a code gives it back, whatever follows. -/
theorem heldCodes_heldCode_append {code : Nat} (small : code ≤ 0x10ffff) (rest : List Char) :
    heldCodes (heldCode code ++ rest) = code :: heldCodes rest := by
  by_cases half : 0xd800 ≤ code ∧ code ≤ 0xdfff
  · have valid : (code + halfShift).isValidChar := by
      simp only [Nat.isValidChar, halfShift]
      omega
    have other : Char.ofNat (code + halfShift) ≠ halfMark :=
      ofNat_ne_halfMark valid (by simp only [halfShift]; omega)
    have isHalf : (isHighHalf code || isLowHalf code) = true := by
      simp only [isHighHalf, isLowHalf, Bool.or_eq_true, decide_eq_true_eq]
      omega
    simp [heldCode, heldCodes, isHalf, other, toNat_ofNat_of_valid valid]
  · have noHalf : (isHighHalf code || isLowHalf code) = false := by
      simp only [isHighHalf, isLowHalf, Bool.or_eq_false_iff, decide_eq_false_iff_not]
      omega
    by_cases mark : code = 0x10ffff
    · have isMark : code = halfMark.toNat := mark.trans toNat_halfMark.symm
      rw [heldCode, noHalf, if_neg Bool.false_ne_true, if_pos isMark, isMark]
      simp [heldCodes]
    · have valid : code.isValidChar := by
        simp only [Nat.isValidChar]
        omega
      simp [heldCode, noHalf, toNat_halfMark, mark, toNat_ofNat_of_valid valid,
        heldCodes_cons (ofNat_ne_halfMark valid mark)]

/-- A text gives back the codes that it holds. -/
theorem codes_ofCodes {given : List Nat} (small : ∀ code ∈ given, code ≤ 0x10ffff) :
    codes (ofCodes given) = given := by
  simp only [codes, ofCodes, String.toList_ofList]
  induction given with
  | nil => rfl
  | cons code rest inductionHypothesis =>
    rw [List.flatMap_cons, heldCodes_heldCode_append (small code (by simp)),
      inductionHypothesis fun other member => small other (by simp [member])]

end StyleAudit.Text
