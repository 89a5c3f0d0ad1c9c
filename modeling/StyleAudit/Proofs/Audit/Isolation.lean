import Mathlib.Algebra.BigOperators.Group.List.Basic
import Mathlib.Data.List.Perm.Basic
import StyleAudit.Proofs.Audit.Share

/-!
# Modules are analyzed on their own

Without a time budget a report is the normal form of the records of the single
modules (`analyze_unlimited_eq_ok_iff`). What is said about one module depends
on no other one: the report of a file is the merged report of any two parts of
it, and the order of the modules does not show (`reportOf_perm`).
-/

namespace StyleAudit

namespace Engine

variable {engine : Engine} {raw : Value} {file : Option String} {source : String}
  {modules : List Value} {cancel : Cancellation} {clock : Clock} {report : FileReport}

/-- The report of a file whose modules have the given shares. -/
def reportOf (source : String) (shares : List Share) : FileReport :=
  ⟨source, Report.ofViolations (shares.flatMap (·.violations)), (shares.map (·.modules)).sum,
    false⟩

/-- Without a time budget the modules of a file are analyzed one by one, and the
tally is the sum of their shares. -/
theorem shares_of_analyzeModules_unlimited (unlimited : engine.timeout = none) {tally : Tally}
    (returned : engine.analyzeModules source .never clock 0 0 modules = .ok tally) :
    ∃ shares, List.Forall₂ (fun raw share => engine.share source none raw = .ok share)
        modules shares ∧
      tally.violations = shares.flatMap (·.violations) ∧
      tally.modules = (shares.map (·.modules)).sum ∧ tally.cancelled = false := by
  obtain ⟨shares, pairs, violations, counted, stopped⟩ := shares_of_analyzeModules returned
  rw [attended_never] at pairs stopped
  refine ⟨shares, pairs.imp ?_, violations, counted, by rw [stopped]; simp⟩
  intro raw share found
  rcases found with ⟨exceeded, fromClock, found⟩
  rw [unlimited, or_self] at fromClock
  rw [← fromClock]
  exact found

/-- Without a budget and without a cancellation the report is made of the
shares of all modules. -/
theorem analyze_unlimited_eq_ok_iff (unlimited : engine.timeout = none)
    (split : splitModules raw file = .ok (modules, source)) :
    engine.analyze raw file .never clock = .ok report ↔
      ∃ shares, List.Forall₂ (fun raw share => engine.share source none raw = .ok share)
          modules shares ∧
        report = reportOf source shares := by
  rw [analyze_of_split split, Outcome.bind_eq_ok_iff]
  constructor
  · intro found
    rcases found with ⟨tally, returned, same⟩
    cases same
    obtain ⟨shares, pairs, violations, counted, stopped⟩ :=
      shares_of_analyzeModules_unlimited unlimited returned
    refine ⟨shares, pairs, ?_⟩
    rw [reportOf, violations, counted, stopped]
  · intro found
    rcases found with ⟨shares, pairs, rfl⟩
    have readable : ∀ raw ∈ attended .never 0 modules,
        ∃ share, engine.share source none raw = .ok share := by
      rw [attended_never]
      exact Outcome.exists_forall₂_iff.mp ⟨shares, pairs⟩
    obtain ⟨tally, returned⟩ := analyzeModules_returns_iff.mpr readable
    obtain ⟨others, otherPairs, violations, counted, stopped⟩ :=
      shares_of_analyzeModules_unlimited unlimited returned
    have sameShares : others = shares := by
      refine List.right_unique_forall₂' ?_ otherPairs pairs
      intro raw share other found otherFound
      rw [found] at otherFound
      exact Except.ok.inj otherFound
    refine ⟨tally, returned, ?_⟩
    rw [reportOf, violations, counted, stopped, sameShares]
    rfl

/-! ## Order does not matter -/

/-- The shares of a file may come in any order if their records are graded: the
report is the same. -/
theorem reportOf_perm {shares others : List Share}
    (graded : ∀ share ∈ shares, ∀ v ∈ share.violations, v.IsGraded)
    (permuted : others.Perm shares) :
    reportOf source others = reportOf source shares := by
  have sameRecords : ∀ v, v ∈ others.flatMap (·.violations) ↔ v ∈ shares.flatMap (·.violations) :=
    fun v => (permuted.flatMap_right _).mem_iff
  have allGraded : ∀ v ∈ shares.flatMap (·.violations), v.IsGraded := by
    intro v member
    obtain ⟨share, shareMember, listed⟩ := List.mem_flatMap.mp member
    exact graded share shareMember v listed
  have sameCount : (others.map (·.modules)).sum = (shares.map (·.modules)).sum :=
    (permuted.map _).sum_eq
  rw [reportOf, reportOf, sameCount,
    Report.ofViolations_eq_of_mem_iff allGraded fun v => (sameRecords v).symm]

/-- The modules of a file may be split into two parts and put in any order: the
report is the merged report of the parts, and the numbers of modules add up. -/
theorem analyze_append_and_permuted (engine : Engine) (unlimited : engine.timeout = none)
    (fields : List (String × Value)) (file : String) (ms ns : List Value)
    (leftClock rightClock : Clock) (left right : FileReport)
    (leftReturned :
      engine.analyze (sourceFileDump fields ms) (some file) .never leftClock = .ok left)
    (rightReturned :
      engine.analyze (sourceFileDump fields ns) (some file) .never rightClock = .ok right) :
    ∃ whole : FileReport,
      whole.violations = Report.merge [left.violations, right.violations] ∧
      whole.modules = left.modules + right.modules ∧
      ∀ permuted clock, permuted.Perm (ms ++ ns) →
        engine.analyze (sourceFileDump fields permuted) (some file) .never clock = .ok whole := by
  obtain ⟨leftShares, leftPairs, rfl⟩ := (analyze_unlimited_eq_ok_iff unlimited
    (splitModules_sourceFileDump fields ms file)).mp leftReturned
  obtain ⟨rightShares, rightPairs, rfl⟩ := (analyze_unlimited_eq_ok_iff unlimited
    (splitModules_sourceFileDump fields ns file)).mp rightReturned
  have pairs := List.rel_append leftPairs rightPairs
  refine ⟨reportOf file (leftShares ++ rightShares), ?_, ?_, ?_⟩
  · rw [reportOf, reportOf, reportOf, Report.merge_ofViolations, List.flatMap_append]
  · rw [reportOf, reportOf, reportOf, List.map_append, List.sum_append]
  · intro permuted clock isPermuted
    obtain ⟨shares, permutedPairs, isSamePermuted⟩ := List.perm_comp_forall₂ isPermuted pairs
    refine (analyze_unlimited_eq_ok_iff unlimited
      (splitModules_sourceFileDump fields permuted file)).mpr ⟨shares, permutedPairs, ?_⟩
    have graded : ∀ share ∈ leftShares ++ rightShares, ∀ v ∈ share.violations, v.IsGraded := by
      intro share member
      obtain ⟨raw, _, found⟩ := Outcome.exists_of_forall₂_of_mem_right pairs member
      exact isGraded_of_share found
    exact (reportOf_perm graded isSamePermuted).symm

theorem analyze_append_and_permuted_import_and_null :
    ofDefaults.timeout = none ∧
      ∃ whole : FileReport,
        whole.modules = 1 ∧
        ofDefaults.analyze (sourceFileDump [] [.null, importingModule "all"]) (some "lib/a.ex")
          .never (fun _ => .zero false) = .ok whole := by
  have left : ofDefaults.analyze (sourceFileDump [] [importingModule "all"]) (some "lib/a.ex")
      .never (fun _ => .zero false) =
        .ok ⟨"lib/a.ex", [.engineError "A: import only entry 'all' is not name/arity"
          ⟨"lib/a.ex", ⟨3, 5, 3, 5⟩⟩], 1, false⟩ := by
    decide +kernel
  have right : ofDefaults.analyze (sourceFileDump [] [.null]) (some "lib/a.ex")
      .never (fun _ => .zero false) =
        .ok ⟨"lib/a.ex", [.engineError "malformed input: Raw tree root must be a mapping"
          ⟨"lib/a.ex", .origin⟩], 0, false⟩ := by
    decide +kernel
  obtain ⟨whole, _, counted, permuted⟩ :=
    analyze_append_and_permuted ofDefaults rfl [] "lib/a.ex" _ _ _ _ _ _ left right
  exact ⟨rfl, whole, counted, permuted _ _ (List.Perm.swap _ _ _)⟩

end Engine
end StyleAudit
