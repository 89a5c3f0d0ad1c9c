import Mathlib.Algebra.GroupWithZero.Nat
import StyleAudit.Proofs.Report.Grade
import StyleAudit.Proofs.Text.Distinct

/-!
# What a result says of its records

A result blocks, counts and groups the records of a merged report. The records
that collide when reports are merged have one severity, so that merging does not
decide whether a run is blocked (`exists_blocks_merge_iff`). Records are sorted by
file first, and the groups of the files, joined, are the records again
(`flatMap_byFile`).
-/

namespace StyleAudit

/-- A record is enough to block a run: it is an error or reaches the
threshold. -/
def Violation.Blocks (v : Violation) (threshold : Severity) : Prop :=
  v.severity = .error ∨ threshold.rank ≤ v.severity.rank

/-! ## Groups -/

section Groups

variable {item key order : Type} [DecidableEq key] [LinearOrder order] {keyOf : item → key}
  {rank : key → order}

/-- In a list that begins with the least keys they can be put first. -/
theorem filter_append_filter_of_least (injective : Function.Injective rank) {items : List item}
    {least : key} (ordered : items.Pairwise fun a b => rank (keyOf a) ≤ rank (keyOf b))
    (isLeast : ∀ a ∈ items, rank least ≤ rank (keyOf a)) :
    items.filter (keyOf · == least) ++ items.filter (fun a => !(keyOf a == least)) = items := by
  induction items with
  | nil => rfl
  | cons first rest inductionHypothesis =>
      obtain ⟨beforeRest, restOrdered⟩ := List.pairwise_cons.mp ordered
      by_cases here : keyOf first = least
      · have restSplit := inductionHypothesis restOrdered fun a member =>
          isLeast a (List.mem_cons_of_mem first member)
        rw [List.filter_cons_of_pos (by simpa using here),
          List.filter_cons_of_neg (by simpa using here), List.cons_append, restSplit]
      · have later : ∀ a ∈ first :: rest, keyOf a ≠ least := by
          have above : rank least < rank (keyOf first) :=
            lt_of_le_of_ne (isLeast first List.mem_cons_self) fun same => here (injective same).symm
          intro a member
          rcases List.mem_cons.mp member with rfl | inRest
          · exact here
          · exact fun same => (lt_of_lt_of_le above (beforeRest a inRest)).ne' (congrArg rank same)
        have noneHere : (first :: rest).filter (keyOf · == least) = [] := by
          rw [List.filter_eq_nil_iff]
          intro a member
          simpa using later a member
        have allLater : (first :: rest).filter (fun a => !(keyOf a == least)) = first :: rest := by
          rw [List.filter_eq_self]
          intro a member
          simpa using later a member
        rw [noneHere, allLater, List.nil_append]

/-- The groups of a list in the order of their keys, joined, are the list. -/
theorem flatMap_filter_eraseDups (injective : Function.Injective rank) (items : List item)
    (ordered : items.Pairwise fun a b => rank (keyOf a) ≤ rank (keyOf b)) :
    ((items.map keyOf).eraseDups.flatMap fun k => items.filter (keyOf · == k)) = items := by
  match items, ordered with
  | [], _ => simp
  | first :: rest, ordered =>
      have isLeast : ∀ a ∈ first :: rest, rank (keyOf first) ≤ rank (keyOf a) := by
        intro a member
        rcases List.mem_cons.mp member with rfl | inRest
        · exact le_rfl
        · exact (List.pairwise_cons.mp ordered).1 a inRest
      have firstOut : (first :: rest).filter (fun a => !(keyOf a == keyOf first)) =
          rest.filter fun a => !(keyOf a == keyOf first) :=
        List.filter_cons_of_neg (by simp)
      have otherKeys : (rest.map keyOf).filter (fun k => !(k == keyOf first)) =
          (rest.filter fun a => !(keyOf a == keyOf first)).map keyOf :=
        List.filter_map
      have others := flatMap_filter_eraseDups injective
        (rest.filter fun a => !(keyOf a == keyOf first))
        ((List.pairwise_cons.mp ordered).2.sublist List.filter_sublist)
      have sameGroups : ∀ k ∈ ((rest.filter fun a => !(keyOf a == keyOf first)).map
          keyOf).eraseDups, (first :: rest).filter (keyOf · == k) =
            (rest.filter fun a => !(keyOf a == keyOf first)).filter (keyOf · == k) := by
        intro k member
        obtain ⟨a, listed, rfl⟩ := List.mem_map.mp (List.mem_eraseDups.mp member)
        have apart : keyOf a ≠ keyOf first := by simpa using (List.mem_filter.mp listed).2
        rw [← firstOut, List.filter_filter]
        refine List.filter_congr fun b _ => ?_
        by_cases same : keyOf b = keyOf a
        · simp [same, apart]
        · simp [same]
      rw [List.map_cons, List.eraseDups_cons, List.flatMap_cons, otherKeys,
        List.flatMap_congr sameGroups, others, ← firstOut]
      exact filter_append_filter_of_least injective ordered isLeast
termination_by items.length
decreasing_by exact Nat.lt_succ_of_le (List.length_filter_le _ _)

end Groups

namespace Report

variable {partials : List (List Violation)} {violations : List Violation}

theorem pairwise_file_ofViolations (violations : List Violation) :
    (ofViolations violations).Pairwise fun v w =>
      Text.sortKey v.span.file ≤ Text.sortKey w.span.file := by
  apply (pairwise_ofViolations violations).imp
  intro v w before
  rcases (Prod.Lex.toLex_lt_toLex.mp before) with earlier | ⟨same, _⟩
  · exact le_of_lt earlier
  · exact le_of_eq same

/-- A merged report blocks when some record of the merged ones does. -/
theorem exists_blocks_merge_iff (graded : ∀ part ∈ partials, ∀ v ∈ part, v.IsGraded)
    (threshold : Severity) :
    (∃ v ∈ merge partials, v.Blocks threshold) ↔
      ∃ part ∈ partials, ∃ v ∈ part, v.Blocks threshold := by
  have allGraded : ∀ v ∈ partials.flatten, v.IsGraded := by
    intro v member
    obtain ⟨part, listed, inPart⟩ := List.mem_flatten.mp member
    exact graded part listed v inPart
  constructor
  · intro found
    rcases found with ⟨v, member, blocks⟩
    obtain ⟨given, _⟩ := leastAt?_eq_some (mem_ofViolations_iff.mp member)
    obtain ⟨part, listed, inPart⟩ := List.mem_flatten.mp given
    exact ⟨part, listed, v, inPart, blocks⟩
  · intro found
    rcases found with ⟨part, listed, v, inPart, blocks⟩
    -- The record itself may be gone, but the one kept in its place is as severe.
    obtain ⟨kept, keptMember, _, sameSeverity, _⟩ :=
      exists_mem_ofViolations allGraded (List.mem_flatten.mpr ⟨part, listed, inPart⟩)
    refine ⟨kept, keptMember, ?_⟩
    rw [Violation.Blocks, sameSeverity]
    exact blocks

end Report

namespace AuditResult

variable {result : AuditResult}

theorem isBlocked_iff {threshold : Severity} :
    result.isBlocked threshold = true ↔ ∃ v ∈ result.violations, v.Blocks threshold := by
  rw [isBlocked, List.any_eq_true]
  simp only [Bool.or_eq_true, beq_iff_eq, decide_eq_true_eq, Violation.Blocks]

theorem sum_count (result : AuditResult) :
    (Severity.all.map result.count).sum = result.violations.length := by
  simp only [Severity.all, List.map_cons, List.map_nil, count]
  induction result.violations with
  | nil => rfl
  | cons v rest inductionHypothesis =>
      rw [List.length_cons, ← inductionHypothesis]
      simp only [List.countP_cons, List.sum_cons, List.sum_nil]
      cases v.severity <;> simp +arith

theorem nodup_files_byFile (result : AuditResult) : (result.byFile.map (·.1)).Nodup := by
  have files : result.byFile.map (·.1) = (result.violations.map (·.span.file)).eraseDups := by
    rw [byFile, List.map_map]
    exact List.map_id _
  rw [files]
  exact Text.nodup_eraseDups _

theorem mem_group_byFile {group : String × List Violation} (member : group ∈ result.byFile) :
    group.2 ≠ [] ∧ ∀ v, v ∈ group.2 ↔ v ∈ result.violations ∧ v.span.file = group.1 := by
  obtain ⟨file, listed, rfl⟩ := List.mem_map.mp member
  obtain ⟨v, given, inFile⟩ := List.mem_map.mp (List.mem_eraseDups.mp listed)
  refine ⟨List.ne_nil_of_mem (List.mem_filter.mpr ⟨given, by simpa using inFile⟩), ?_⟩
  intro w
  rw [List.mem_filter, beq_iff_eq]

theorem flatMap_byFile
    (ordered : result.violations.Pairwise fun v w =>
      Text.sortKey v.span.file ≤ Text.sortKey w.span.file) :
    result.byFile.flatMap (·.2) = result.violations := by
  rw [byFile, List.flatMap_map]
  exact flatMap_filter_eraseDups Text.sortKey_injective _ ordered

end AuditResult
end StyleAudit
