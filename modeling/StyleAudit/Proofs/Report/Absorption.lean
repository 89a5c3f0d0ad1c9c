import Mathlib.Data.List.Pairwise
import StyleAudit.Proofs.Report.Order
import StyleAudit.Report.Merge

/-!
# What a report keeps

`Report.leastAt?` says which record a report keeps for a place: the one that
comes first in the order, and of several with the same key the earliest. A
report is strictly in order and is determined by what it keeps
(`eq_of_find?_eq`), so partial reports may be merged instead of the records
they were made from (`merge_ofViolations`).
-/

namespace StyleAudit.Report

/-- The record that represents a place among some records. -/
def leastAt? (place : String × Span) : List Violation → Option Violation
  | [] => none
  | v :: rest =>
    if v.place = place then
      match leastAt? place rest with
      | none => some v
      | some w => if v.atMost w then some v else some w
    else leastAt? place rest

/-- The earlier of two records, which the first one is if both are equal. -/
def preferred : Option Violation → Option Violation → Option Violation
  | none, second => second
  | some v, none => some v
  | some v, some w => if v.atMost w then some v else some w

theorem leastAt?_cons (place : String × Span) (v : Violation) (rest : List Violation) :
    leastAt? place (v :: rest) =
      if v.place = place then preferred (some v) (leastAt? place rest)
      else leastAt? place rest := by
  rw [leastAt?]
  cases leastAt? place rest <;> rfl

/-- Of three records the one to keep does not depend on which two are compared first. -/
theorem preferred_assoc (first second third : Option Violation) :
    preferred (preferred first second) third = preferred first (preferred second third) := by
  cases first with
  | none => rfl
  | some u =>
      cases second with
      | none => rfl
      | some v =>
          cases third with
          | none =>
              by_cases uv : u.atMost v = true <;> simp [preferred, uv]
          | some w =>
              by_cases uv : u.atMost v = true <;> by_cases vw : v.atMost w = true
              · have uw := Violation.atMost_trans u v w uv vw
                simp [preferred, uv, vw, uw]
              · simp [preferred, uv, vw]
              · simp [preferred, uv, vw]
              · -- Neither `u` before `v` nor `v` before `w` leaves `w` first.
                have uw : ¬ u.atMost w = true := by
                  intro early
                  have late : w.atMost v = true := by
                    have total := Violation.atMost_total v w
                    simpa [vw] using total
                  exact uv (Violation.atMost_trans u w v early late)
                simp [preferred, uv, vw, uw]

theorem leastAt?_append (place : String × Span) (left right : List Violation) :
    leastAt? place (left ++ right) =
      preferred (leastAt? place left) (leastAt? place right) := by
  induction left with
  | nil => rfl
  | cons v rest inductionHypothesis =>
      rw [List.cons_append, leastAt?_cons, leastAt?_cons, inductionHypothesis]
      by_cases here : v.place = place
      · rw [if_pos here, if_pos here, preferred_assoc]
      · rw [if_neg here, if_neg here]

theorem leastAt?_ne_none {place : String × Span} {violations : List Violation} {v : Violation}
    (member : v ∈ violations) (atPlace : v.place = place) :
    leastAt? place violations ≠ none := by
  induction violations with
  | nil => simp at member
  | cons u rest inductionHypothesis =>
      rw [leastAt?_cons]
      by_cases here : u.place = place
      · rw [if_pos here]
        cases leastAt? place rest with
        | none => simp [preferred]
        | some w => by_cases uw : u.atMost w = true <;> simp [preferred, uw]
      · rw [if_neg here]
        rcases List.mem_cons.mp member with rfl | later
        · exact absurd atPlace here
        · exact inductionHypothesis later

/-- The record to keep is given, stands at the place and is sorted before all that
stand there. -/
theorem leastAt?_eq_some {place : String × Span} {violations : List Violation} {v : Violation}
    (least : leastAt? place violations = some v) :
    v ∈ violations ∧ v.place = place ∧
      ∀ w ∈ violations, w.place = place → v.atMost w = true := by
  induction violations generalizing v with
  | nil => simp [leastAt?] at least
  | cons u rest inductionHypothesis =>
      rw [leastAt?_cons] at least
      by_cases here : u.place = place
      · rw [if_pos here] at least
        cases found : leastAt? place rest with
        | none =>
            rw [found] at least
            cases least
            refine ⟨List.mem_cons_self, here, ?_⟩
            intro w member atPlace
            rcases List.mem_cons.mp member with rfl | later
            · exact Violation.atMost_refl w
            · exact absurd found (leastAt?_ne_none later atPlace)
        | some x =>
            obtain ⟨xMember, xPlace, xLeast⟩ := inductionHypothesis found
            rw [found] at least
            by_cases ux : u.atMost x = true
            · rw [preferred, if_pos ux] at least
              cases least
              refine ⟨List.mem_cons_self, here, ?_⟩
              intro w member atPlace
              rcases List.mem_cons.mp member with rfl | later
              · exact Violation.atMost_refl w
              · exact Violation.atMost_trans u x w ux (xLeast w later atPlace)
            · have same : x = v := by
                simpa [preferred, ux] using least
              subst same
              refine ⟨List.mem_cons_of_mem u xMember, xPlace, ?_⟩
              intro w member atPlace
              rcases List.mem_cons.mp member with rfl | later
              · simpa [ux] using Violation.atMost_total w x
              · exact xLeast w later atPlace
      · rw [if_neg here] at least
        obtain ⟨vMember, vPlace, vLeast⟩ := inductionHypothesis least
        refine ⟨List.mem_cons_of_mem u vMember, vPlace, ?_⟩
        intro w member atPlace
        rcases List.mem_cons.mp member with rfl | later
        · exact absurd atPlace here
        · exact vLeast w later atPlace

/-! ## Reports keep the least record of each place -/

/-- In sorted records the first one at a place is the one to keep. -/
theorem find?_mergeSort (place : String × Span) (violations : List Violation) :
    (violations.mergeSort Violation.atMost).find? (·.place == place) =
      leastAt? place violations := by
  induction violations with
  | nil => simp [leastAt?]
  | cons v rest inductionHypothesis =>
      -- Sorting is stable: `v` is put before everything it is not after.
      obtain ⟨before, after, sorted, sortedRest, afterV⟩ :=
        List.mergeSort_cons Violation.atMost_trans Violation.atMost_total v rest
      have ordered : (before ++ v :: after).Pairwise fun x y => x.atMost y = true := by
        rw [← sorted]
        exact List.pairwise_mergeSort Violation.atMost_trans Violation.atMost_total (v :: rest)
      rw [sortedRest, List.find?_append] at inductionHypothesis
      rw [sorted, List.find?_append, leastAt?_cons, ← inductionHypothesis]
      by_cases here : v.place = place
      · rw [List.find?_cons_of_pos (by simpa using here), if_pos here]
        cases early : before.find? (·.place == place) with
        | some x =>
            have notBefore : v.atMost x = false := by
              simpa using afterV x (List.mem_of_find?_eq_some early)
            simp [preferred, notBefore]
        | none =>
            cases late : after.find? (·.place == place) with
            | none => rfl
            | some x =>
                have tailOrdered := (List.pairwise_append.mp ordered).2.1
                have isBefore : v.atMost x = true :=
                  (List.pairwise_cons.mp tailOrdered).1 x (List.mem_of_find?_eq_some late)
                simp [preferred, isBefore]
      · rw [List.find?_cons_of_neg (by simpa using here), if_neg here]

/-- Of the records at a place that was not seen, the first stays. -/
theorem find?_dropSeen (place : String × Span) (seen : List (String × Span))
    (violations : List Violation) :
    (dropSeen seen violations).find? (·.place == place) =
      if place ∈ seen then none else violations.find? (·.place == place) := by
  induction violations generalizing seen with
  | nil => simp [dropSeen]
  | cons v rest inductionHypothesis =>
      rw [dropSeen]
      by_cases known : v.place ∈ seen
      · rw [if_pos (by simpa using known), inductionHypothesis]
        by_cases placeKnown : place ∈ seen
        · rw [if_pos placeKnown, if_pos placeKnown]
        · have elsewhere : v.place ≠ place := by
            rintro rfl
            exact placeKnown known
          rw [if_neg placeKnown, if_neg placeKnown,
            List.find?_cons_of_neg (by simpa using elsewhere)]
      · rw [if_neg (by simpa using known)]
        by_cases here : v.place = place
        · subst here
          rw [if_neg known, List.find?_cons_of_pos (by simp), List.find?_cons_of_pos (by simp)]
        · rw [List.find?_cons_of_neg (by simpa using here),
            List.find?_cons_of_neg (by simpa using here), inductionHypothesis]
          simp [Ne.symm here]

/-- A report shows for each place the least record that was given for it. -/
theorem find?_ofViolations (place : String × Span) (violations : List Violation) :
    (ofViolations violations).find? (·.place == place) = leastAt? place violations := by
  rw [ofViolations, find?_dropSeen, if_neg (List.not_mem_nil), find?_mergeSort]

theorem dropSeen_sublist (seen : List (String × Span)) (violations : List Violation) :
    (dropSeen seen violations).Sublist violations := by
  induction violations generalizing seen with
  | nil => exact List.Sublist.slnil
  | cons v rest inductionHypothesis =>
      rw [dropSeen]
      split
      · exact (inductionHypothesis seen).cons v
      · exact (inductionHypothesis (v.place :: seen)).cons_cons v

/-- No two records that are kept share a place, and none has a place seen
before. -/
theorem dropSeen_places (seen : List (String × Span)) (violations : List Violation) :
    (dropSeen seen violations).Pairwise (fun v w => v.place ≠ w.place) ∧
      ∀ v ∈ dropSeen seen violations, v.place ∉ seen := by
  induction violations generalizing seen with
  | nil => simp [dropSeen]
  | cons v rest inductionHypothesis =>
      rw [dropSeen]
      split
      · exact inductionHypothesis seen
      · rename_i fresh
        obtain ⟨distinct, unseen⟩ := inductionHypothesis (v.place :: seen)
        constructor
        · apply List.pairwise_cons.mpr
          refine ⟨?_, distinct⟩
          intro w member same
          exact unseen w member (by simp [same])
        · intro w member
          rcases List.mem_cons.mp member with rfl | later
          · simpa using fresh
          · intro known
            exact unseen w later (List.mem_cons_of_mem v.place known)

/-- A report is strictly in order. -/
theorem pairwise_ofViolations (violations : List Violation) :
    (ofViolations violations).Pairwise fun v w => v.sortKey < w.sortKey := by
  have sorted :=
    List.pairwise_mergeSort Violation.atMost_trans Violation.atMost_total violations
  have ordered := sorted.sublist (dropSeen_sublist [] _)
  have distinct := (dropSeen_places [] (violations.mergeSort Violation.atMost)).1
  apply (ordered.and distinct).imp
  rintro v w ⟨before, elsewhere⟩
  have keyBefore : v.sortKey ≤ w.sortKey := (Violation.atMost_iff v w).mp before
  refine lt_of_le_of_ne keyBefore ?_
  intro sameKey
  exact elsewhere ((Violation.sortKey_eq_iff v w).mp sameKey).1

/-- The records of a report are those to keep at their places. -/
theorem mem_ofViolations_iff {violations : List Violation} {v : Violation} :
    v ∈ ofViolations violations ↔ leastAt? v.place violations = some v := by
  rw [← find?_ofViolations]
  constructor
  · intro member
    cases found : (ofViolations violations).find? (·.place == v.place) with
    | none =>
        have missing := List.find?_eq_none.mp found v member
        simp at missing
    | some w =>
        have samePlace : w.place = v.place := by
          simpa using List.find?_some found
        have distinct := (dropSeen_places [] (violations.mergeSort Violation.atMost)).1
        have symmetric : Std.Symm fun x y : Violation => x.place ≠ y.place :=
          ⟨fun _ _ apart => apart.symm⟩
        by_contra different
        have apart : w.place ≠ v.place :=
          distinct.forall (List.mem_of_find?_eq_some found) member
            fun same => different (congrArg some same)
        exact apart samePlace
  · intro found
    exact List.mem_of_find?_eq_some found

/-- Records that are strictly in order are determined by which they are. -/
theorem eq_of_mem_iff_of_pairwise {left right : List Violation}
    (same : ∀ v, v ∈ left ↔ v ∈ right)
    (leftOrdered : left.Pairwise fun v w => v.sortKey < w.sortKey)
    (rightOrdered : right.Pairwise fun v w => v.sortKey < w.sortKey) : left = right := by
  have nodup : ∀ {violations : List Violation},
      violations.Pairwise (fun v w => v.sortKey < w.sortKey) → violations.Nodup := by
    intro violations ordered
    apply ordered.imp
    rintro v w before rfl
    exact lt_irrefl _ before
  have permutation : left.Perm right :=
    (List.perm_ext_iff_of_nodup (nodup leftOrdered) (nodup rightOrdered)).mpr same
  refine permutation.eq_of_pairwise ?_ leftOrdered rightOrdered
  intro v w _ _ before after
  exact absurd (lt_trans before after) (lt_irrefl _)

/-- Reports that keep the same record for each place are equal. -/
theorem ofViolations_congr {left right : List Violation}
    (same : ∀ place, leastAt? place left = leastAt? place right) :
    ofViolations left = ofViolations right := by
  refine eq_of_mem_iff_of_pairwise ?_ (pairwise_ofViolations left) (pairwise_ofViolations right)
  intro v
  rw [mem_ofViolations_iff, mem_ofViolations_iff, same]

theorem leastAt?_ofViolations (place : String × Span) (violations : List Violation) :
    leastAt? place (ofViolations violations) = leastAt? place violations := by
  have sorted : (ofViolations violations).Pairwise fun v w => v.atMost w = true := by
    apply (pairwise_ofViolations violations).imp
    intro v w before
    exact (Violation.atMost_iff v w).mpr before.le
  rw [← find?_mergeSort, List.mergeSort_of_pairwise sorted, find?_ofViolations]

/-- Merging partial reports gives the report over all that they were made
from. -/
theorem merge_ofViolations (left right : List Violation) :
    merge [ofViolations left, ofViolations right] = ofViolations (left ++ right) := by
  apply ofViolations_congr
  intro place
  simp only [List.flatten_cons, List.flatten_nil, List.append_nil]
  rw [leastAt?_append, leastAt?_append, leastAt?_ofViolations, leastAt?_ofViolations]

end StyleAudit.Report
