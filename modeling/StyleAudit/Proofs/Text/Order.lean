import Mathlib.Data.List.Lex
import Mathlib.Data.Prod.Lex
import Mathlib.Data.String.Basic
import StyleAudit.Text.Order

/-!
# Texts in the order of their codes

`Text.sortKey` writes the order of texts as a key in a linear order, so that
`Text.atMost` is total and transitive and tells all texts apart. Texts that are
made of codes are in the order of the codes (`atMost_ofCodes_iff`), halves of
pairs among them.
-/

namespace StyleAudit.Text

variable {a b : String}

/-- The test is the lexicographic order of lists. -/
theorem inCodeOrder_iff {as bs : List Nat} : inCodeOrder as bs = true ↔ as ≤ bs := by
  induction as generalizing bs with
  | nil =>
      rw [← not_lt]
      simp [inCodeOrder]
  | cons a as inductionHypothesis =>
      cases bs with
      | nil =>
          rw [← not_lt]
          simp [inCodeOrder]
      | cons b bs =>
          rw [inCodeOrder, Bool.or_eq_true, Bool.and_eq_true, decide_eq_true_eq, beq_iff_eq,
            inductionHypothesis, ← not_lt, ← not_lt, List.cons_lt_cons_iff]
          rcases lt_trichotomy a b with before | rfl | after
          · simp [before, before.not_gt, before.ne']
          · simp
          · simp [after, after.not_gt, after.ne']

/-- What texts are sorted by: the codes that they hold, then their characters. -/
abbrev Key := List Nat ×ₗ String

/-- The key of a text. -/
def sortKey (text : String) : Key :=
  toLex (codes text, text)

theorem sortKey_injective : Function.Injective sortKey := by
  intro a b same
  exact congrArg (fun key => (ofLex key).2) same

/-- The test that texts are sorted by is the order of their keys. -/
theorem atMost_iff : atMost a b = true ↔ sortKey a ≤ sortKey b := by
  rw [sortKey, sortKey, Prod.Lex.toLex_le_toLex, atMost, codesAtMost]
  by_cases same : codes a = codes b
  · simp [same]
  · rw [if_neg same, inCodeOrder_iff, le_iff_lt_or_eq]
    simp [same]

theorem atMost_refl (a : String) : atMost a a = true :=
  atMost_iff.mpr le_rfl

theorem atMost_trans (a b c : String) (first : atMost a b = true) (second : atMost b c = true) :
    atMost a c = true :=
  atMost_iff.mpr ((atMost_iff.mp first).trans (atMost_iff.mp second))

theorem atMost_total (a b : String) : (atMost a b || atMost b a) = true := by
  rw [Bool.or_eq_true, atMost_iff, atMost_iff]
  exact le_total (sortKey a) (sortKey b)

theorem atMost_antisymm (forward : atMost a b = true) (backward : atMost b a = true) : a = b :=
  sortKey_injective ((atMost_iff.mp forward).antisymm (atMost_iff.mp backward))

/-- Texts that are made of codes are in the order of the codes. -/
theorem atMost_ofCodes_iff {as bs : List Nat} (small : ∀ code ∈ as, code ≤ 0x10ffff)
    (alsoSmall : ∀ code ∈ bs, code ≤ 0x10ffff) :
    atMost (ofCodes as) (ofCodes bs) = true ↔ as ≤ bs := by
  rw [atMost, codesAtMost, codes_ofCodes small, codes_ofCodes alsoSmall]
  by_cases same : as = bs
  · simp [same]
  · rw [if_neg same, inCodeOrder_iff]

/-- A half of a pair comes before the characters of higher codes, although its
mark does not. -/
example : atMost (ofCodes [0xd800]) "😀" = true ∧ ¬ ofCodes [0xd800] ≤ "😀" := by
  decide +kernel

end StyleAudit.Text
