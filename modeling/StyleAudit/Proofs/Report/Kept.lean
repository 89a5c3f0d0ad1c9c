import Mathlib.Data.List.Permutation
import StyleAudit.Proofs.Report.Grade

/-!
# The records that a report keeps

`IsKept` says from the given records alone which of them a report keeps. A
report is the list of these in strict order, one for every place, and making a
report again or of parts changes nothing
(`ofViolations_keeps_least_and_absorbs`).

Records that differ in their severity only have the same key, and the first of
them is kept. `ofViolations_permuted_iff`: this is all that the order in which
records are given decides.
-/

namespace StyleAudit.Report

variable {violations permuted : List Violation} {place : String × Span} {v w : Violation}

/-- No record at the place of `v` is sorted before it, and those with the same
key are given after it. -/
def IsKept (violations : List Violation) (v : Violation) : Prop :=
  ∃ before after, violations = before ++ v :: after ∧
    (∀ w ∈ before, w.place = v.place → v.sortKey < w.sortKey) ∧
    ∀ w ∈ after, w.place = v.place → v.sortKey ≤ w.sortKey

theorem leastAt?_of_isKept (kept : IsKept violations v) :
    leastAt? v.place violations = some v := by
  obtain ⟨before, after, rfl, earlier, later⟩ := kept
  have fromHere : leastAt? v.place (v :: after) = some v := by
    rw [leastAt?_cons, if_pos rfl]
    cases least : leastAt? v.place after with
    | none => rfl
    | some w =>
        obtain ⟨member, samePlace, _⟩ := leastAt?_eq_some least
        have isBefore := (Violation.atMost_iff v w).mpr (later w member samePlace)
        rw [preferred, if_pos isBefore]
  rw [leastAt?_append, fromHere]
  cases least : leastAt? v.place before with
  | none => rfl
  | some w =>
      obtain ⟨member, samePlace, _⟩ := leastAt?_eq_some least
      have isAfter : ¬ w.atMost v = true := by
        rw [Violation.atMost_iff, not_le]
        exact earlier w member samePlace
      rw [preferred, if_neg isAfter]

/-- By induction on the records: the one to keep is sorted first, and before it stand
only greater ones. -/
theorem isKept_of_leastAt? (least : leastAt? place violations = some v) :
    IsKept violations v := by
  induction violations with
  | nil => cases least
  | cons u rest inductionHypothesis =>
      obtain ⟨_, atPlace, first⟩ := leastAt?_eq_some least
      rw [leastAt?_cons] at least
      split at least
      · cases found : leastAt? place rest with
        | none =>
            rw [found] at least
            cases least
            refine ⟨[], rest, rfl, by simp, ?_⟩
            intro w member samePlace
            exact absurd found (leastAt?_ne_none member (samePlace.trans atPlace))
        | some x =>
            rw [found, preferred] at least
            split at least
            · cases least
              refine ⟨[], rest, rfl, by simp, ?_⟩
              intro w member samePlace
              exact (Violation.atMost_iff v w).mp
                (first w (List.mem_cons_of_mem v member) (samePlace.trans atPlace))
            · rename_i notBefore
              cases least
              obtain ⟨before, after, rfl, earlier, later⟩ := inductionHypothesis found
              refine ⟨u :: before, after, rfl, List.forall_mem_cons.mpr ⟨?_, earlier⟩, later⟩
              intro _
              rwa [Violation.atMost_iff, not_le] at notBefore
      · rename_i elsewhere
        obtain ⟨before, after, rfl, earlier, later⟩ := inductionHypothesis least
        refine ⟨u :: before, after, rfl, List.forall_mem_cons.mpr ⟨?_, earlier⟩, later⟩
        intro samePlace
        exact absurd (samePlace.trans atPlace) elsewhere

theorem mem_ofViolations_iff_isKept : v ∈ ofViolations violations ↔ IsKept violations v := by
  rw [mem_ofViolations_iff]
  exact ⟨isKept_of_leastAt?, leastAt?_of_isKept⟩

/-- A report has one record for every place that is given. -/
theorem existsUnique_mem_ofViolations (member : w ∈ violations) :
    ∃! v, v ∈ ofViolations violations ∧ v.place = w.place := by
  cases least : leastAt? w.place violations with
  | none => exact absurd least (leastAt?_ne_none member rfl)
  | some v =>
      obtain ⟨_, atPlace, _⟩ := leastAt?_eq_some least
      refine ⟨v, ⟨?_, atPlace⟩, ?_⟩
      · rw [mem_ofViolations_iff, atPlace, least]
      · rintro u ⟨reported, samePlace⟩
        rw [mem_ofViolations_iff, samePlace, least] at reported
        exact (Option.some.inj reported).symm

/-- A report is what it was made from: making it again changes nothing. -/
theorem ofViolations_ofViolations (violations : List Violation) :
    ofViolations (ofViolations violations) = ofViolations violations :=
  ofViolations_congr fun place => leastAt?_ofViolations place violations

/-- A report is strictly in order and keeps for each place the record that is
sorted first, the earliest of several with the same key. Partial reports can be
merged instead of the records they were made from, and a report is its own
report. -/
theorem ofViolations_keeps_least_and_absorbs (violations left right : List Violation) :
    (ofViolations violations).Pairwise (fun v w => v.sortKey < w.sortKey) ∧
      (∀ w ∈ violations, ∃! v, v ∈ ofViolations violations ∧ v.place = w.place) ∧
      (∀ v, v ∈ ofViolations violations ↔ IsKept violations v) ∧
      merge [ofViolations left, ofViolations right] = ofViolations (left ++ right) ∧
      ofViolations (ofViolations violations) = ofViolations violations :=
  ⟨pairwise_ofViolations violations, fun _ member => existsUnique_mem_ofViolations member,
    fun _ => mem_ofViolations_iff_isKept, merge_ofViolations left right,
    ofViolations_ofViolations violations⟩

/-- A record about an import on a line. -/
def importRecord (line : Nat) (message : String) (severity : Severity) : Violation :=
  ⟨"import-scope", ⟨"lib/a.ex", ⟨line, 1, line, 1⟩⟩, message, severity⟩

/-- The last conjunct: a message that is the half of a pair has a lesser code than one
beyond the first 65536 code points. -/
theorem ofViolations_keeps_least_and_absorbs_imports :
    ofViolations [importRecord 2 "c" .violation, importRecord 1 "b" .violation,
        importRecord 1 "a" .violation, importRecord 1 "a" .advisory] =
      [importRecord 1 "a" .violation, importRecord 2 "c" .violation] ∧
    (∃! v, v ∈ ofViolations [importRecord 2 "c" .violation, importRecord 1 "b" .violation,
        importRecord 1 "a" .violation, importRecord 1 "a" .advisory] ∧
      v.place = (importRecord 1 "b" .violation).place) ∧
    importRecord 1 (Text.ofCodes [0xd800]) .violation ∈
      ofViolations [importRecord 1 "😀" .violation,
        importRecord 1 (Text.ofCodes [0xd800]) .violation] := by
  refine ⟨by cbv, ?_, ?_⟩
  · exact (ofViolations_keeps_least_and_absorbs _ [] []).2.1 (importRecord 1 "b" .violation)
      (by simp)
  · refine ((ofViolations_keeps_least_and_absorbs _ [] []).2.2.1 _).mpr
      ⟨[importRecord 1 "😀" .violation], [], rfl, ?_, by simp⟩
    intro w member _
    rw [List.mem_singleton.mp member, ← not_le, ← Violation.atMost_iff]
    decide +kernel

/-! ## The order of the records given -/

/-- The key of the record to keep does not depend on the order of the
records. -/
theorem exists_leastAt?_of_perm (isPermuted : permuted.Perm violations)
    (least : leastAt? place violations = some v) :
    ∃ w, leastAt? place permuted = some w ∧ w.sortKey = v.sortKey := by
  obtain ⟨member, atPlace, first⟩ := leastAt?_eq_some least
  cases found : leastAt? place permuted with
  | none => exact absurd found (leastAt?_ne_none (isPermuted.mem_iff.mpr member) atPlace)
  | some w =>
      obtain ⟨otherMember, otherPlace, otherFirst⟩ := leastAt?_eq_some found
      have forward := otherFirst v (isPermuted.mem_iff.mpr member) atPlace
      have backward := first w (isPermuted.mem_iff.mp otherMember) otherPlace
      rw [Violation.atMost_iff] at forward backward
      exact ⟨w, rfl, le_antisymm forward backward⟩

theorem sortKey_mem_of_perm (isPermuted : permuted.Perm violations)
    (member : v ∈ ofViolations violations) :
    ∃ w ∈ ofViolations permuted, w.sortKey = v.sortKey := by
  obtain ⟨w, least, sameKey⟩ :=
    exists_leastAt?_of_perm isPermuted (mem_ofViolations_iff.mp member)
  refine ⟨w, ?_, sameKey⟩
  rw [mem_ofViolations_iff, ((Violation.sortKey_eq_iff w v).mp sameKey).1]
  exact least

/-- However the records are ordered, the reports agree in all but
severities. -/
theorem map_sortKey_ofViolations_of_perm (isPermuted : permuted.Perm violations) :
    (ofViolations permuted).map (·.sortKey) = (ofViolations violations).map (·.sortKey) := by
  have sameKeys : ∀ key, key ∈ (ofViolations permuted).map (·.sortKey) ↔
      key ∈ (ofViolations violations).map (·.sortKey) := by
    intro key
    simp only [List.mem_map]
    constructor
    · rintro ⟨v, member, rfl⟩
      exact sortKey_mem_of_perm isPermuted.symm member
    · rintro ⟨v, member, rfl⟩
      exact sortKey_mem_of_perm isPermuted member
  have ordered : ∀ given, ((ofViolations given).map (·.sortKey)).Pairwise (· < ·) :=
    fun given => (pairwise_ofViolations given).map _ fun _ _ before => before
  have nodup : ∀ given, ((ofViolations given).map (·.sortKey)).Nodup :=
    fun given => (ordered given).imp fun before => before.ne
  have sameUpToOrder :=
    (List.perm_ext_iff_of_nodup (nodup permuted) (nodup violations)).mpr sameKeys
  exact sameUpToOrder.eq_of_pairwise (fun _ _ _ _ before after => absurd after before.asymm)
    (ordered permuted) (ordered violations)

/-- A record that comes first is kept among all that have its key. -/
theorem mem_ofViolations_cons (member : v ∈ ofViolations violations)
    (sameKey : w.sortKey = v.sortKey) (others : List Violation)
    (among : ∀ u ∈ others, u ∈ violations) : w ∈ ofViolations (w :: others) := by
  obtain ⟨samePlace, _⟩ := (Violation.sortKey_eq_iff w v).mp sameKey
  obtain ⟨_, _, first⟩ := leastAt?_eq_some (mem_ofViolations_iff.mp member)
  refine mem_ofViolations_iff_isKept.mpr ⟨[], others, rfl, by simp, ?_⟩
  intro u listed atPlace
  rw [sameKey]
  exact (Violation.atMost_iff v u).mp (first u (among u listed) (atPlace.trans samePlace))

/-- No record has the key of one that is kept and is another one. -/
def IsDetermined (violations : List Violation) : Prop :=
  ∀ v ∈ ofViolations violations, ∀ w ∈ violations, w.sortKey = v.sortKey → w = v

/-- If the kept records are determined, the order of the records does not matter. -/
theorem ofViolations_eq_of_perm (determined : IsDetermined violations)
    (isPermuted : permuted.Perm violations) :
    ofViolations permuted = ofViolations violations := by
  refine ofViolations_congr fun place => ?_
  cases least : leastAt? place violations with
  | none =>
      cases found : leastAt? place permuted with
      | none => rfl
      | some w =>
          obtain ⟨member, atPlace, _⟩ := leastAt?_eq_some found
          exact absurd least (leastAt?_ne_none (isPermuted.mem_iff.mp member) atPlace)
  | some v =>
      obtain ⟨w, found, sameKey⟩ := exists_leastAt?_of_perm isPermuted least
      obtain ⟨_, atPlace, _⟩ := leastAt?_eq_some least
      have kept : v ∈ ofViolations violations := by
        rw [mem_ofViolations_iff, atPlace, least]
      have listed : w ∈ violations := isPermuted.mem_iff.mp (leastAt?_eq_some found).1
      rw [found, determined v kept w listed sameKey]

/-- If no order of the records changes the report, the kept records are determined. -/
theorem isDetermined_of_forall_perm (insensitive : ∀ permuted : List Violation,
    permuted.Perm violations → ofViolations permuted = ofViolations violations) :
    IsDetermined violations := by
  intro v member w listed sameKey
  -- The report of the records with `w` moved to the front keeps `w`.
  have isPermuted : (w :: violations.erase w).Perm violations :=
    (List.perm_cons_erase listed).symm
  have kept : w ∈ ofViolations violations := by
    rw [← insensitive _ isPermuted]
    exact mem_ofViolations_cons member sameKey _ fun u => List.mem_of_mem_erase
  obtain ⟨samePlace, _⟩ := (Violation.sortKey_eq_iff w v).mp sameKey
  exact (existsUnique_mem_ofViolations listed).unique ⟨kept, rfl⟩ ⟨member, samePlace.symm⟩

/-- Records whose severity is that of their rule do not differ in it only. -/
theorem isDetermined_of_isGraded (graded : ∀ v ∈ violations, v.IsGraded) :
    IsDetermined violations := by
  intro v member w listed sameKey
  have given : v ∈ violations := (leastAt?_eq_some (mem_ofViolations_iff.mp member)).1
  exact Violation.eq_of_atMost (graded w listed) (graded v given)
    ((Violation.atMost_iff w v).mpr sameKey.le) ((Violation.atMost_iff v w).mpr sameKey.ge)

/-- The reports of the same records in any order agree in all but severities.
They are equal exactly when no record differs from one that is kept in its
severity only; partial reports can then be merged in any order. This is so if
the severity of every record is that of its rule. -/
theorem ofViolations_permuted_iff (violations : List Violation) :
    (∀ permuted : List Violation, permuted.Perm violations →
        (ofViolations permuted).map (·.sortKey) = (ofViolations violations).map (·.sortKey)) ∧
      ((∀ permuted : List Violation, permuted.Perm violations →
          ofViolations permuted = ofViolations violations) ↔ IsDetermined violations) ∧
      (IsDetermined violations → ∀ partials others : List (List Violation),
        partials.flatten = violations → others.Perm partials →
          merge others = merge partials) ∧
      ((∀ v ∈ violations, v.IsGraded) → IsDetermined violations) := by
  refine ⟨fun _ => map_sortKey_ofViolations_of_perm, ⟨isDetermined_of_forall_perm,
    fun determined _ => ofViolations_eq_of_perm determined⟩, ?_, isDetermined_of_isGraded⟩
  rintro determined partials others rfl isPermuted
  exact ofViolations_eq_of_perm determined isPermuted.flatten

theorem ofViolations_permuted_iff_imports :
    IsDetermined [importRecord 1 "b" .violation, importRecord 1 "a" .violation] ∧
      merge [[importRecord 1 "a" .violation], [importRecord 1 "b" .violation]] =
        merge [[importRecord 1 "b" .violation], [importRecord 1 "a" .violation]] := by
  have reported : ofViolations [importRecord 1 "b" .violation, importRecord 1 "a" .violation] =
      [importRecord 1 "a" .violation] := by
    cbv
  have determined :
      IsDetermined [importRecord 1 "b" .violation, importRecord 1 "a" .violation] := by
    intro v member w listed sameKey
    rw [reported, List.mem_singleton] at member
    obtain ⟨_, sameMessage⟩ := (Violation.sortKey_eq_iff w v).mp sameKey
    rcases List.mem_pair.mp listed with rfl | rfl
    · simp [member, importRecord] at sameMessage
    · exact member.symm
  exact ⟨determined,
    (ofViolations_permuted_iff _).2.2.1 determined _ _ rfl (List.Perm.swap _ _ _)⟩

/-- Of two records that differ in their severity only the one given first is
kept. -/
theorem ofViolations_differ_by_severity :
    [importRecord 1 "a" .advisory, importRecord 1 "a" .violation].Perm
        [importRecord 1 "a" .violation, importRecord 1 "a" .advisory] ∧
      ofViolations [importRecord 1 "a" .advisory, importRecord 1 "a" .violation] ≠
        ofViolations [importRecord 1 "a" .violation, importRecord 1 "a" .advisory] := by
  have first : ofViolations [importRecord 1 "a" .advisory, importRecord 1 "a" .violation] =
      [importRecord 1 "a" .advisory] := by
    cbv
  have second : ofViolations [importRecord 1 "a" .violation, importRecord 1 "a" .advisory] =
      [importRecord 1 "a" .violation] := by
    cbv
  refine ⟨List.Perm.swap _ _ _, ?_⟩
  rw [first, second]
  decide

end StyleAudit.Report
