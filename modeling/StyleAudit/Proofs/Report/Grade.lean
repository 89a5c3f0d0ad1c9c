import StyleAudit.Proofs.Report.Absorption
import StyleAudit.Rule.Basic

/-!
# The severity of a rule

The order of records leaves the severity out, so two records can only be told
apart by it if their rule is not fixed to one. Records are graded when the
severity is that of their rule: `ofViolations_eq_of_mem_iff` then reports the
same for all lists with the same records, in any order and number.
-/

namespace StyleAudit

/-- The severity of all records of a rule id; what no rule has found is an
error. -/
def gradeOf (ruleId : String) : Severity :=
  match Rule.ofId? ruleId with
  | some rule => rule.severity
  | none => .error

/-- The severity of a record is that of its rule. -/
def Violation.IsGraded (v : Violation) : Prop :=
  v.severity = gradeOf v.ruleId

theorem Rule.ofId?_id (rule : Rule) : Rule.ofId? rule.id = some rule := by
  cases rule <;> decide

theorem Rule.id_injective {rule other : Rule} (same : rule.id = other.id) : rule = other := by
  have found := Rule.ofId?_id rule
  rw [same, Rule.ofId?_id] at found
  exact (Option.some.inj found).symm

theorem Rule.id_ne_engineRuleId (rule : Rule) : rule.id ≠ engineRuleId := by
  cases rule <;> decide

theorem Rule.report_isGraded (rule : Rule) (finding : Finding) :
    (rule.report finding).IsGraded := by
  rw [Violation.IsGraded, Rule.report, gradeOf, Rule.ofId?_id]

theorem Violation.engineError_isGraded (message : String) (span : Span) :
    (engineError message span).IsGraded := by
  have noRule : Rule.ofId? engineRuleId = none := by decide
  rw [IsGraded, engineError, gradeOf, noRule]

/-- Graded records that are not after each other are equal. -/
theorem Violation.eq_of_atMost {v w : Violation} (graded : v.IsGraded) (otherGraded : w.IsGraded)
    (forward : v.atMost w = true) (backward : w.atMost v = true) : v = w := by
  rw [atMost_iff] at forward backward
  obtain ⟨samePlace, sameMessage⟩ := (sortKey_eq_iff v w).mp (le_antisymm forward backward)
  have sameRule : v.ruleId = w.ruleId := congrArg Prod.fst samePlace
  have sameSpan : v.span = w.span := congrArg Prod.snd samePlace
  have sameSeverity : v.severity = w.severity := by
    rw [graded, otherGraded, sameRule]
  obtain ⟨ruleId, span, message, severity⟩ := v
  obtain ⟨ruleId', span', message', severity'⟩ := w
  simp only at sameRule sameSpan sameMessage sameSeverity
  rw [sameRule, sameSpan, sameMessage, sameSeverity]

namespace Report

/-- Among graded records, the one to keep at a place depends only on which records
there are. -/
theorem leastAt?_eq_of_mem_iff {left right : List Violation}
    (graded : ∀ v ∈ left, v.IsGraded) (same : ∀ v, v ∈ left ↔ v ∈ right)
    (place : String × Span) :
    leastAt? place left = leastAt? place right := by
  cases leftLeast : leastAt? place left with
  | none =>
      cases rightLeast : leastAt? place right with
      | none => rfl
      | some w =>
          obtain ⟨member, atPlace, _⟩ := leastAt?_eq_some rightLeast
          exact absurd leftLeast (leastAt?_ne_none ((same w).mpr member) atPlace)
  | some v =>
      obtain ⟨leftMember, leftPlace, leftFirst⟩ := leastAt?_eq_some leftLeast
      cases rightLeast : leastAt? place right with
      | none =>
          exact absurd rightLeast (leastAt?_ne_none ((same v).mp leftMember) leftPlace)
      | some w =>
          obtain ⟨rightMember, rightPlace, rightFirst⟩ := leastAt?_eq_some rightLeast
          have inLeft : w ∈ left := (same w).mpr rightMember
          have inRight : v ∈ right := (same v).mp leftMember
          have equal : v = w :=
            Violation.eq_of_atMost (graded v leftMember) (graded w inLeft)
              (leftFirst w inLeft rightPlace) (rightFirst v inRight leftPlace)
          rw [equal]

/-- The report of graded records depends on which records there are, not on
their order or number. -/
theorem ofViolations_eq_of_mem_iff {left right : List Violation}
    (graded : ∀ v ∈ left, v.IsGraded) (same : ∀ v, v ∈ left ↔ v ∈ right) :
    ofViolations left = ofViolations right :=
  ofViolations_congr (leastAt?_eq_of_mem_iff graded same)

/-- Every graded record is in the report, or another one of its rule, range and
severity whose message is first. -/
theorem exists_mem_ofViolations {violations : List Violation} {record : Violation}
    (graded : ∀ v ∈ violations, v.IsGraded) (member : record ∈ violations) :
    ∃ v ∈ ofViolations violations, v.place = record.place ∧ v.severity = record.severity ∧
      Text.atMost v.message record.message = true := by
  cases least : leastAt? record.place violations with
  | none => exact absurd least (leastAt?_ne_none member rfl)
  | some v =>
      obtain ⟨inList, samePlace, first⟩ := leastAt?_eq_some least
      have kept : v ∈ ofViolations violations := by
        rw [mem_ofViolations_iff, samePlace]
        exact least
      have sameRule : v.ruleId = record.ruleId := congrArg Prod.fst samePlace
      have sameSeverity : v.severity = record.severity := by
        rw [graded v inList, graded record member, sameRule]
      have ordered := first record member rfl
      rw [Violation.atMost_eq_of_place_eq samePlace] at ordered
      exact ⟨v, kept, samePlace, sameSeverity, ordered⟩

end Report
end StyleAudit
