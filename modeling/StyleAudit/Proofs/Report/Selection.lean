import StyleAudit.Proofs.Report.Absorption

/-!
# Reports of selected rules

A report keeps one record of each rule at a range, so no rule displaces the
records of another one: the records of some rules in a report are the report of
the records of those rules (`selected_ofViolations`).
-/

namespace StyleAudit.Report

variable {keep : String → Bool}

/-- The records of the rules that are kept. -/
def selected (keep : String → Bool) (violations : List Violation) : List Violation :=
  violations.filter fun v => keep v.ruleId

theorem selected_append (left right : List Violation) :
    selected keep (left ++ right) = selected keep left ++ selected keep right :=
  List.filter_append left right

theorem selected_engineError (engineKept : keep engineRuleId = true) (message : String)
    (span : Span) :
    selected keep [.engineError message span] = [.engineError message span] :=
  List.filter_cons_of_pos engineKept

/-- Some of the rules that are kept can be selected before or after. -/
theorem filter_eq_of_selected_eq {left right : List Violation}
    (same : selected keep left = selected keep right) {id : String} (kept : keep id = true) :
    left.filter (·.ruleId == id) = right.filter (·.ruleId == id) := by
  have among : ∀ violations : List Violation,
      (selected keep violations).filter (·.ruleId == id) = violations.filter (·.ruleId == id) := by
    intro violations
    rw [selected, List.filter_filter]
    apply List.filter_congr
    intro v _
    by_cases isWanted : v.ruleId = id
    · simp [isWanted, kept]
    · simp [isWanted]
  rw [← among left, ← among right, same]

/-- Selecting rules keeps all records of a place or none of them. -/
theorem leastAt?_selected (place : String × Span) (violations : List Violation) :
    leastAt? place (selected keep violations) =
      if keep place.1 then leastAt? place violations else none := by
  rw [selected]
  induction violations with
  | nil => simp [leastAt?]
  | cons v rest inductionHypothesis =>
      rw [leastAt?_cons]
      by_cases here : v.place = place
      · have sameRule : v.ruleId = place.1 := congrArg Prod.fst here
        by_cases kept : keep place.1 = true
        · rw [List.filter_cons_of_pos (by rw [sameRule, kept]), leastAt?_cons,
            inductionHypothesis, if_pos here, if_pos kept, if_pos kept, if_pos here]
        · rw [List.filter_cons_of_neg (by rwa [sameRule]), inductionHypothesis, if_neg kept,
            if_neg kept]
      · rw [if_neg here, ← inductionHypothesis, List.filter_cons]
        split
        · rw [leastAt?_cons, if_neg here]
        · rfl

/-- Selecting the records of some rules commutes with making the report. -/
theorem selected_ofViolations (violations : List Violation) :
    selected keep (ofViolations violations) = ofViolations (selected keep violations) := by
  refine eq_of_mem_iff_of_pairwise ?_ ((pairwise_ofViolations violations).filter _)
    (pairwise_ofViolations _)
  intro v
  rw [selected, List.mem_filter, mem_ofViolations_iff, mem_ofViolations_iff, leastAt?_selected]
  by_cases kept : keep v.ruleId = true
  · simp [Violation.place, kept]
  · simp [Violation.place, kept]

end StyleAudit.Report
