import Mathlib.Algebra.BigOperators.Group.List.Basic
import StyleAudit.Proofs.Audit.DumpWork
import StyleAudit.Proofs.Audit.Schedule

/-!
# Accounting for the files of a run

When everything is collected, every file has either a report among those taken
or a place among the files skipped, and the order in which tasks are started,
finished and collected does not show (`steps_account_for_files`).
-/

namespace StyleAudit

namespace RunState

variable {files : List String} {work : FileWork} {workers : Nat} {state next : RunState}
  {file : String}

/-! ## Complete runs -/

namespace IsAccounted

theorem mem_files (accounted : IsAccounted files work state) {task : TaskState}
    (found : state.task? file = some task) : file ∈ files := by
  rw [← accounted.names]
  exact exists_task?_iff.mp ⟨task, found⟩

/-- Every task of a complete run that did not fail is collected. -/
theorem mem_collected_iff (accounted : IsAccounted files work state)
    (complete : state.isComplete = true) (unfailed : state.failure = none) :
    file ∈ state.collected ↔ file ∈ files := by
  constructor
  · intro member
    obtain ⟨task, found, _⟩ := accounted.collected file member
    exact accounted.mem_files found
  · intro listed
    rw [isComplete, unfailed, Option.isSome_none, Bool.false_or, List.all_eq_true] at complete
    rw [← accounted.names] at listed
    obtain ⟨entry, member, rfl⟩ := List.mem_map.mp listed
    exact List.contains_iff_mem.mp (complete entry member)

theorem collected_perm (accounted : IsAccounted files work state) (distinct : files.Nodup)
    (complete : state.isComplete = true) (unfailed : state.failure = none) :
    state.collected.Perm files := by
  rw [List.perm_ext_iff_of_nodup accounted.once distinct]
  exact fun _ => accounted.mem_collected_iff complete unfailed

/-- The reports taken are those of the files that have one. -/
theorem reports_perm (accounted : IsAccounted files work state) (distinct : files.Nodup)
    (complete : state.isComplete = true) (unfailed : state.failure = none) :
    state.reports.Perm (files.filterMap state.reportOf?) := by
  rw [accounted.reports]
  exact ((List.reverse_perm _).trans
    (accounted.collected_perm distinct complete unfailed)).filterMap _

/-- The files skipped are those that have no report. -/
theorem mem_skipped_iff (accounted : IsAccounted files work state)
    (complete : state.isComplete = true) (unfailed : state.failure = none) :
    file ∈ state.skipped ↔ file ∈ files ∧ state.reportOf? file = none := by
  rw [accounted.skipped]
  constructor
  · rintro (isCancelled | ⟨_, isSkipped⟩)
    · exact ⟨accounted.mem_files isCancelled, by rw [reportOf?, isCancelled]⟩
    · exact ⟨accounted.mem_files isSkipped, by rw [reportOf?, isSkipped]⟩
  · rintro ⟨listed, noReport⟩
    have member := (accounted.mem_collected_iff complete unfailed).mpr listed
    obtain ⟨task, found, ended⟩ := accounted.collected file member
    cases task with
    | pending => cases ended
    | running began => cases ended
    | cancelled => exact Or.inl found
    | finished outcome =>
        cases outcome with
        | skipped => exact Or.inr ⟨member, found⟩
        | failed fault => exact absurd found (accounted.unfailed unfailed file member fault)
        | reported report =>
            rw [reportOf?, found] at noReport
            cases noReport

theorem sortedDistinct_skipped (accounted : IsAccounted files work state)
    (ordered : files.Pairwise fun a b => Text.atMost b a = false)
    (complete : state.isComplete = true)
    (unfailed : state.failure = none) :
    Text.sortedDistinct state.skipped =
      files.filter fun file => (state.reportOf? file).isNone := by
  refine Text.sortedDistinct_eq (ordered.sublist List.filter_sublist) fun text => ?_
  rw [accounted.mem_skipped_iff complete unfailed, List.mem_filter, Option.isNone_iff_eq_none]

theorem work_of_reportOf? (accounted : IsAccounted files work state) {report : FileReport}
    (found : state.reportOf? file = some report) :
    ∃ cancel, (state.cancelRequested = false → cancel = .never) ∧
      work file cancel = .ok report := by
  rw [reportOf?] at found
  split at found
  · rename_i finished
    cases found
    exact accounted.worked file _ _ finished rfl
  · cases found

/-- Without a cancellation every file gets the report of the work on it. -/
theorem work_of_undisturbed (accounted : IsAccounted files work state)
    (complete : state.isComplete = true) (unfailed : state.failure = none)
    (calm : state.cancelRequested = false) (listed : file ∈ files) :
    ∃ report, work file .never = .ok report ∧ state.reportOf? file = some report := by
  cases found : state.reportOf? file with
  | none =>
      have isSkipped := (accounted.mem_skipped_iff complete unfailed).mpr ⟨listed, found⟩
      rcases (accounted.skipped file).mp isSkipped with isCancelled | ⟨_, isFinished⟩
      · exact absurd rfl (accounted.undisturbed calm file _ isCancelled).1
      · exact absurd rfl (accounted.undisturbed calm file _ isFinished).2.2
  | some report =>
      obtain ⟨cancel, never, worked⟩ := accounted.work_of_reportOf? found
      rw [never calm] at worked
      exact ⟨report, worked, rfl⟩

theorem filter_isNone_of_undisturbed (accounted : IsAccounted files work state)
    (complete : state.isComplete = true) (unfailed : state.failure = none)
    (calm : state.cancelRequested = false) :
    files.filter (fun file => (state.reportOf? file).isNone) = [] := by
  rw [List.filter_eq_nil_iff]
  intro file listed
  obtain ⟨report, _, found⟩ := accounted.work_of_undisturbed complete unfailed calm listed
  simp [found]

/-- Without a cancellation the reports are those of working on one file after
the other. -/
theorem mapM_work_of_undisturbed (accounted : IsAccounted files work state)
    (complete : state.isComplete = true) (unfailed : state.failure = none)
    (calm : state.cancelRequested = false) :
    files.mapM (fun file => work file .never) = .ok (files.filterMap state.reportOf?) :=
  Outcome.mapM_eq_ok_filterMap fun _ listed =>
    accounted.work_of_undisturbed complete unfailed calm listed

end IsAccounted

/-! ## Runs that nobody cancels -/

theorem cancelRequested_step {step : RunStep} (kept : step ≠ .requestCancel)
    (taken : state.step? workers work step = some next) :
    next.cancelRequested = state.cancelRequested := by
  rcases step?_cases taken with ⟨file, -, -, -, rfl⟩ | ⟨file, readings, began, -, -, rfl⟩ |
    ⟨isRequest, -⟩ | ⟨file, -, -, -, ⟨-, rfl⟩ | ⟨outcome, -, rfl⟩⟩
  · rfl
  · rfl
  · exact absurd isRequest kept
  · rfl
  · cases outcome with
    | skipped => rfl
    | failed fault => rfl
    | reported report =>
        rw [take]
        split <;> rfl

/-- Steps none of which asks for a cancellation leave the request as it is. -/
theorem cancelRequested_steps {sequence : List RunStep} (kept : .requestCancel ∉ sequence)
    (workers : Nat) (work : FileWork) (state : RunState) :
    (state.steps workers work sequence).cancelRequested = state.cancelRequested := by
  have stepKeeps : ∀ step ∈ sequence, ∀ before after : RunState,
      before.cancelRequested = state.cancelRequested →
      before.step? workers work step = some after →
      after.cancelRequested = state.cancelRequested := by
    intro step member before after same taken
    have notRequest : step ≠ .requestCancel := by
      rintro rfl
      exact kept member
    rw [cancelRequested_step notRequest taken, same]
  exact steps_keeps stepKeeps rfl

/-! ## What a run comes to -/

theorem moduleCount_eq_sum (reports : List FileReport) :
    moduleCount reports = (reports.map (·.modules)).sum := by
  induction reports with
  | nil => rfl
  | cons report rest inductionHypothesis =>
      rw [List.map_cons, List.sum_cons, ← inductionHypothesis]
      rfl

theorem moduleCount_perm {reports others : List FileReport} (permuted : others.Perm reports) :
    moduleCount others = moduleCount reports := by
  rw [moduleCount_eq_sum, moduleCount_eq_sum]
  exact (permuted.map _).sum_eq

theorem merge_perm {reports others : List FileReport} (permuted : others.Perm reports)
    (graded : ∀ report ∈ reports, ∀ v ∈ report.violations, v.IsGraded) :
    Report.merge (others.map (·.violations)) = Report.merge (reports.map (·.violations)) := by
  have sameRecords : ∀ v, v ∈ (reports.map (·.violations)).flatten ↔
      v ∈ (others.map (·.violations)).flatten :=
    fun v => (permuted.symm.map _).flatten.mem_iff
  refine (Report.ofViolations_eq_of_mem_iff ?_ sameRecords).symm
  intro v member
  obtain ⟨records, listed, inRecords⟩ := List.mem_flatten.mp member
  obtain ⟨report, isReport, rfl⟩ := List.mem_map.mp listed
  exact graded report isReport v inRecords

/-- Every file either has a finding or is counted among those without one. -/
theorem length_filterMap_add_length_filter {item : Type} (files : List String)
    (found? : String → Option item) :
    (files.filterMap found?).length + (files.filter fun file => (found? file).isNone).length =
      files.length := by
  induction files with
  | nil => rfl
  | cons file rest inductionHypothesis =>
      cases found : found? file with
      | none =>
          rw [List.filterMap_cons_none found, List.filter_cons_of_pos (by rw [found]; rfl),
            List.length_cons, List.length_cons]
          omega
      | some item =>
          rw [List.filterMap_cons_some found, List.filter_cons_of_neg (by rw [found]; nofun),
            List.length_cons, List.length_cons]
          omega

end RunState

namespace Engine

open RunState

theorem isGraded_of_mem_reports {engine : Engine} {tree : FileTree} {clocks : String → Clock}
    {files : List String} {state : RunState}
    (accounted : IsAccounted files (fun file => engine.dumpWork tree (clocks file) file) state)
    {report : FileReport} (member : report ∈ state.reports) :
    ∀ v ∈ report.violations, v.IsGraded := by
  rw [accounted.reports] at member
  obtain ⟨file, _, found⟩ := List.mem_filterMap.mp member
  obtain ⟨cancel, _, worked⟩ := accounted.work_of_reportOf? found
  exact isGraded_of_dumpWork worked

/-- A complete run whose tasks raise nothing accounts for every dump: it either
gave one of the reports or is recorded as skipped. The order in which the
reports were taken does not show, and a run that is never cancelled comes to
what the dumps give one after the other. -/
theorem steps_account_for_files (engine : Engine) (unlimited : engine.timeout = none)
    (tree : FileTree) (clocks : String → Clock) (paths files : List String)
    (discovered : tree.discover dumpPatterns paths = .ok files) (workers : Nat)
    (sequence : List RunStep) (state : RunState)
    (reached : (initial files).steps workers
      (fun file => engine.dumpWork tree (clocks file) file) sequence = state)
    (complete : state.isComplete = true) :
    (∃ file ∈ files, ∃ cancel fault,
        engine.dumpWork tree (clocks file) file cancel = .error fault ∧
          state.result = .error fault) ∨
      ∃ result, state.result = .ok result ∧
        (∀ file report, state.reportOf? file = some report → ∃ cancel,
          engine.dumpWork tree (clocks file) file cancel = .ok report) ∧
        state.reports.Perm (files.filterMap state.reportOf?) ∧
        result.skipped = files.filter (fun file => (state.reportOf? file).isNone) ∧
        result.files + result.skipped.length = files.length ∧
        (∀ reports : List FileReport, reports.Perm state.reports →
          result.violations = Report.merge (reports.map (·.violations)) ∧
            result.files = reports.length ∧ result.modules = moduleCount reports) ∧
        (.requestCancel ∉ sequence → result.skipped = [] ∧ result.cancelled = false ∧
          ∀ others : String → Clock, ∃ reports,
            files.mapM (fun file => engine.dumpWork tree (others file) file .never) =
                .ok reports ∧
              result.violations = Report.merge (reports.map (·.violations)) ∧
              result.files = reports.length ∧ result.modules = moduleCount reports) := by
  have ordered := FileTree.pairwise_of_discover discovered
  have distinct : files.Nodup := Text.nodup_of_pairwise ordered
  have accounted : IsAccounted files (fun file => engine.dumpWork tree (clocks file) file) state := by
    rw [← reached]
    exact isAccounted_steps distinct workers _ sequence
  cases failure : state.failure with
  | some fault =>
      obtain ⟨file, broken⟩ := accounted.failed fault failure
      obtain ⟨cancel, _, raised⟩ := accounted.worked file _ _ broken rfl
      exact Or.inl ⟨file, accounted.mem_files broken, cancel, fault, raised, by
        rw [result, failure]⟩
  | none =>
      have taken := accounted.reports_perm distinct complete failure
      have skipped := accounted.sortedDistinct_skipped ordered complete failure
      have anyOrder : ∀ reports : List FileReport, reports.Perm state.reports →
          Report.merge (state.reports.map (·.violations)) =
              Report.merge (reports.map (·.violations)) ∧
            state.reports.length = reports.length ∧
            moduleCount state.reports = moduleCount reports :=
        fun reports permuted =>
          ⟨(merge_perm permuted fun _ => isGraded_of_mem_reports accounted).symm,
            permuted.length_eq.symm, (moduleCount_perm permuted).symm⟩
      refine Or.inr ⟨_, by rw [result, failure], ?_, taken, skipped, ?_, anyOrder, ?_⟩
      · intro file report found
        obtain ⟨cancel, _, worked⟩ := accounted.work_of_reportOf? found
        exact ⟨cancel, worked⟩
      · rw [skipped, taken.length_eq]
        exact length_filterMap_add_length_filter files state.reportOf?
      · intro noRequest
        have calm : state.cancelRequested = false := by
          rw [← reached]
          exact cancelRequested_steps noRequest workers _ _
        refine ⟨?_, by simp [wasCutShort, calm], fun others => ?_⟩
        · rw [skipped, accounted.filter_isNone_of_undisturbed complete failure calm]
        · have sameWork : ∀ file, engine.dumpWork tree (others file) file .never =
              engine.dumpWork tree (clocks file) file .never :=
            fun file => dumpWork_clock unlimited tree (others file) (clocks file) file .never
          refine ⟨files.filterMap state.reportOf?, ?_, anyOrder _ taken.symm⟩
          simp only [sameWork]
          exact accounted.mapM_work_of_undisturbed complete failure calm

/-- Two empty files and the dump of a source file without modules. -/
def threeDumps : FileTree :=
  let document := "\x7b\"kind\": \"source_file\", \"attributes\": \x7b\"file\": \"b.ex\"\x7d\x7d"
  .directory [("a.ast.json", .file []), ("b.ast.json", .file document.toUTF8.toList),
    ("c.ast.json", .file [])]

/-- Two workers take the first two dumps. The run is cancelled before the
report of the second is collected. -/
def cutShort : List RunStep :=
  [.start "a.ast.json", .start "b.ast.json", .finish "b.ast.json" .never, .requestCancel,
    .collect "b.ast.json", .finish "a.ast.json" fun _ => true, .collect "c.ast.json",
    .collect "a.ast.json"]

theorem steps_account_for_files_cut_short :
    ∃ state, (initial ["a.ast.json", "b.ast.json", "c.ast.json"]).steps 2
        (fun file => ofDefaults.dumpWork threeDumps (fun _ => .zero false) file) cutShort = state ∧
      state.isComplete = true ∧
      ∃ result, state.result = .ok result ∧ result.files = 1 ∧
        result.skipped = ["a.ast.json", "c.ast.json"] := by
  have parts : ["c.ast.json", "b.ast.json", "a.ast.json"].mapM
      (threeDumps.dumpsAt dumpPatterns) =
        .ok [["c.ast.json"], ["b.ast.json"], ["a.ast.json"]] := by
    decide +kernel
  have discovered : threeDumps.discover dumpPatterns
      ["c.ast.json", "b.ast.json", "a.ast.json"] =
        .ok ["a.ast.json", "b.ast.json", "c.ast.json"] := by
    rw [FileTree.discover, parts]
    exact congrArg Except.ok (Text.sortedDistinct_eq (by decide) (by simp; tauto))
  refine ⟨_, rfl, ?_⟩
  generalize reached : (initial ["a.ast.json", "b.ast.json", "c.ast.json"]).steps 2
    (fun file => ofDefaults.dumpWork threeDumps (fun _ => .zero false) file) cutShort = state
  have ended : state.isComplete = true ∧ state.failure = none ∧
      ["a.ast.json", "b.ast.json", "c.ast.json"].filter
        (fun file => (state.reportOf? file).isNone) = ["a.ast.json", "c.ast.json"] := by
    rw [← reached]
    decide +kernel
  obtain ⟨complete, unfailed, withoutReport⟩ := ended
  rcases steps_account_for_files ofDefaults rfl threeDumps (fun _ _ => .zero false) _ _ discovered
    2 cutShort state reached complete with ⟨_, _, _, _, _, failed⟩ |
      ⟨result, returned, _, _, skipped, count, _⟩
  · rw [RunState.result, unfailed] at failed
    cases failed
  · rw [withoutReport] at skipped
    rw [skipped] at count
    exact ⟨complete, result, returned, Nat.add_right_cancel count, skipped⟩

end Engine
end StyleAudit
