import StyleAudit.Proofs.Text.Order
import StyleAudit.Report.Violation

/-!
# The order of records

Records are compared by file, line, column and rule, then by the end of the
range and by the message, texts by the codes that they hold.
`Violation.sortKey` writes this as one key in a linear order, so that
`Violation.atMost` is total and transitive. Records with the same key agree in
everything but their severity.
-/

namespace StyleAudit.Violation

/-- What a record is sorted by. -/
def sortKey (v : Violation) : Text.Key ×ₗ Nat ×ₗ Nat ×ₗ Text.Key ×ₗ Nat ×ₗ Nat ×ₗ Text.Key :=
  toLex (Text.sortKey v.span.file, toLex (v.span.coordinates.startLine,
    toLex (v.span.coordinates.startColumn, toLex (Text.sortKey v.ruleId,
      toLex (v.span.coordinates.endLine, toLex (v.span.coordinates.endColumn,
        Text.sortKey v.message))))))

theorem thenBy_iff {key : Type} [LinearOrder key] (a b : key) (next : Bool) :
    thenBy a b next = true ↔ a < b ∨ a = b ∧ next = true := by
  unfold thenBy
  by_cases equal : a = b
  · rw [if_pos equal]
    simp [equal]
  · rw [if_neg equal]
    simp [equal]

theorem thenByText_iff (a b : String) (next : Bool) :
    thenByText a b next = true ↔
      Text.sortKey a < Text.sortKey b ∨ Text.sortKey a = Text.sortKey b ∧ next = true := by
  unfold thenByText
  by_cases equal : a = b
  · rw [if_pos equal]
    simp [equal]
  · have different : Text.sortKey a ≠ Text.sortKey b := Text.sortKey_injective.ne equal
    rw [if_neg equal, Text.atMost_iff, le_iff_lt_or_eq]
    simp [different]

/-- The test that records are sorted by is the order of their keys. -/
theorem atMost_iff (v w : Violation) :
    v.atMost w = true ↔ v.sortKey ≤ w.sortKey := by
  simp only [atMost, thenByText_iff, thenBy_iff, Text.atMost_iff, sortKey,
    Prod.Lex.toLex_le_toLex]

theorem atMost_refl (v : Violation) : v.atMost v = true :=
  (atMost_iff v v).mpr le_rfl

theorem atMost_trans (u v w : Violation)
    (first : u.atMost v = true) (second : v.atMost w = true) :
    u.atMost w = true := by
  rw [atMost_iff] at first second ⊢
  exact le_trans first second

theorem atMost_total (v w : Violation) :
    (v.atMost w || w.atMost v) = true := by
  rw [Bool.or_eq_true, atMost_iff, atMost_iff]
  exact le_total v.sortKey w.sortKey

/-- The key holds everything but the severity. -/
theorem sortKey_eq_iff (v w : Violation) :
    v.sortKey = w.sortKey ↔ v.place = w.place ∧ v.message = w.message := by
  obtain ⟨rule, ⟨file, ⟨line, column, endLine, endColumn⟩⟩, message, severity⟩ := v
  obtain ⟨rule', ⟨file', ⟨line', column', endLine', endColumn'⟩⟩, message', severity'⟩ := w
  simp only [sortKey, place, EmbeddingLike.apply_eq_iff_eq, Prod.mk.injEq,
    Text.sortKey_injective.eq_iff, Span.mk.injEq, Coordinates.mk.injEq]
  tauto

/-- At one place the order is that of the messages. -/
theorem atMost_eq_of_place_eq {v w : Violation} (samePlace : v.place = w.place) :
    v.atMost w = Text.atMost v.message w.message := by
  have sameRule : v.ruleId = w.ruleId := congrArg Prod.fst samePlace
  have sameSpan : v.span = w.span := congrArg Prod.snd samePlace
  rw [atMost, sameRule, sameSpan]
  simp only [thenByText, thenBy, if_true]

end StyleAudit.Violation
