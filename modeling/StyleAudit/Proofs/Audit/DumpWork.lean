import StyleAudit.Audit.DumpCheck
import StyleAudit.Proofs.Audit.Share
import StyleAudit.Proofs.Text.Distinct

/-!
# The work on one dump

Without a time budget the report of a dump does not depend on the clock
(`dumpWork_clock`), and its records have the severities of their rules
(`isGraded_of_dumpWork`). The dumps of a run are listed in strict order.
-/

namespace StyleAudit

theorem FileTree.pairwise_of_discover {tree : FileTree} {patterns paths files : List String}
    (found : tree.discover patterns paths = .ok files) :
    files.Pairwise fun a b => Text.atMost b a = false := by
  obtain ⟨parts, _, same⟩ := Outcome.bind_eq_ok_iff.mp found
  cases same
  exact Text.pairwise_sortedDistinct parts.flatten

namespace Engine

variable {engine : Engine} {tree : FileTree} {raw : Value} {file : Option String} {path : String}
  {cancel : Cancellation} {clock : Clock} {report : FileReport}

/-! ## The clock -/

theorem analyzeModules_clock (unlimited : engine.timeout = none) (source : String)
    (cancel : Cancellation) (clock other : Clock) (index tick otherTick : Nat)
    (modules : List Value) :
    engine.analyzeModules source cancel clock index tick modules =
      engine.analyzeModules source cancel other index otherTick modules := by
  induction modules generalizing index tick otherTick with
  | nil => rfl
  | cons raw rest inductionHypothesis =>
      cases attends : cancel index with
      | true => rw [analyzeModules, analyzeModules, if_pos attends, if_pos attends]
      | false =>
          obtain ⟨_, later, fromClock, step⟩ :=
            analyzeModules_cons engine source clock tick attends raw rest
          obtain ⟨_, otherLater, otherFromClock, otherStep⟩ :=
            analyzeModules_cons engine source other otherTick attends raw rest
          rw [unlimited, or_self] at fromClock otherFromClock
          rw [step, otherStep, fromClock, otherFromClock,
            inductionHypothesis (index + 1) later otherLater]

theorem analyze_clock (unlimited : engine.timeout = none) (raw : Value) (file : Option String)
    (cancel : Cancellation) (clock other : Clock) :
    engine.analyze raw file cancel clock = engine.analyze raw file cancel other := by
  rw [analyze, analyze]
  simp only [analyzeModules_clock unlimited _ cancel clock other 0 0 0]

theorem dumpWork_clock (unlimited : engine.timeout = none) (tree : FileTree)
    (clock other : Clock) (path : String) (cancel : Cancellation) :
    engine.dumpWork tree clock path cancel = engine.dumpWork tree other path cancel := by
  rw [dumpWork, dumpWork]
  simp only [analyze_clock unlimited _ _ cancel clock other]

/-! ## Severities -/

theorem isGraded_of_analyze (returned : engine.analyze raw file cancel clock = .ok report) :
    ∀ v ∈ report.violations, v.IsGraded := by
  intro v member
  cases split : splitModules raw file with
  | error fault =>
      rw [analyze, split] at returned
      cases returned
      rw [List.mem_singleton.mp member]
      exact Violation.engineError_isGraded _ _
  | ok parts =>
      obtain ⟨modules, source⟩ := parts
      rw [analyze_of_split split] at returned
      obtain ⟨tally, analyzed, same⟩ := Outcome.bind_eq_ok_iff.mp returned
      cases same
      obtain ⟨shares, pairs, violations, _⟩ := shares_of_analyzeModules analyzed
      have given := (Report.leastAt?_eq_some (Report.mem_ofViolations_iff.mp member)).1
      rw [violations] at given
      obtain ⟨share, listed, inShare⟩ := List.mem_flatMap.mp given
      obtain ⟨_, _, _, _, found⟩ := Outcome.exists_of_forall₂_of_mem_right pairs listed
      exact isGraded_of_share found v inShare

/-- All records of a dump have the severity of their rule, whether or not it could be
loaded. -/
theorem isGraded_of_dumpWork (reported : engine.dumpWork tree clock path cancel = .ok report) :
    ∀ v ∈ report.violations, v.IsGraded := by
  rw [dumpWork] at reported
  split at reported
  · cases reported
    intro v member
    rw [List.mem_singleton.mp member]
    exact Violation.engineError_isGraded _ _
  · cases reported
  · cases reported
  · rename_i raw _
    cases analyzed : engine.analyze raw (some (subjectOf raw path)) cancel clock with
    | error fault =>
        rw [analyzed] at reported
        cases reported
    | ok found =>
        rw [analyzed] at reported
        cases reported
        exact isGraded_of_analyze analyzed

end Engine
end StyleAudit
