import StyleAudit.CommandLine.Program
import StyleAudit.Proofs.Audit.DumpWork
import StyleAudit.Proofs.Audit.Schedule
import StyleAudit.Proofs.Report.Summary

/-!
# The verdict on a run

A run is blocked when one of the reports that were taken holds a record that
blocks: every report comes from an analysis or stands for a dump that could not
be loaded, and the records of these that collide are equally severe. The result
counts and groups all the records that it has (`result_seesAll`).
-/

namespace StyleAudit

/-- The report of an analysis, or of a dump that could not be loaded. -/
inductive FileReport.IsProduced : FileReport → Prop
  | analyzed {engine : Engine} {raw : Value} {file : Option String} {cancel : Cancellation}
      {clock : Clock} {report : FileReport}
      (returned : engine.analyze raw file cancel clock = .ok report) : IsProduced report
  | unloaded (path : String) (fault : DumpFault) : IsProduced (Engine.unloadedReport path fault)

theorem FileReport.IsProduced.isGraded {report : FileReport} (produced : report.IsProduced) :
    ∀ v ∈ report.violations, v.IsGraded := by
  cases produced with
  | analyzed returned => exact Engine.isGraded_of_analyze returned
  | unloaded path fault =>
      intro v member
      rw [List.mem_singleton.mp member]
      exact Violation.engineError_isGraded _ _

/-- The work of every task is to produce a report. -/
theorem Engine.isProduced_of_dumpWork {engine : Engine} {tree : FileTree} {clock : Clock}
    {path : String} {cancel : Cancellation} {report : FileReport}
    (reported : engine.dumpWork tree clock path cancel = .ok report) : report.IsProduced := by
  rw [dumpWork] at reported
  split at reported
  · cases reported
    exact FileReport.IsProduced.unloaded path _
  · cases reported
  · cases reported
  · rename_i raw _
    cases analyzed : engine.analyze raw (some (subjectOf raw path)) cancel clock with
    | error fault =>
        rw [analyzed] at reported
        cases reported
    | ok found =>
        rw [analyzed] at reported
        cases reported
        exact FileReport.IsProduced.analyzed analyzed

namespace RunState

variable {holds : FileReport → Prop} {files : List String} {work : FileWork} {workers : Nat}
  {state next : RunState} {sequence : List RunStep}

/-! ## Reports of a run -/

/-- The reports taken and those that wait to be collected have a property. -/
structure AllReports (holds : FileReport → Prop) (state : RunState) : Prop where
  taken : ∀ report ∈ state.reports, holds report
  waiting : ∀ file report, state.task? file = some (.finished (.reported report)) → holds report

theorem allReports_initial (files : List String) : (initial files).AllReports holds := by
  refine ⟨fun report member => absurd member List.not_mem_nil, ?_⟩
  intro file report found
  obtain ⟨_, _, same⟩ := List.mem_map.mp (mem_of_task? found)
  cases (congrArg Prod.snd same)

theorem AllReports.setTask (reports : state.AllReports holds) (file : String) {task : TaskState}
    (gives : ∀ report, task = .finished (.reported report) → holds report) :
    (state.setTask file task).AllReports holds := by
  refine ⟨reports.taken, ?_⟩
  intro other report found
  rw [task?_setTask, Option.map_eq_some_iff] at found
  obtain ⟨old, oldFound, same⟩ := found
  by_cases here : other = file
  · rw [if_pos here] at same
    exact gives report same
  · rw [if_neg here] at same
    rw [same] at oldFound
    exact reports.waiting other report oldFound

theorem AllReports.cancelWaiting (reports : state.AllReports holds) :
    state.cancelWaiting.AllReports holds := by
  refine ⟨reports.taken, ?_⟩
  intro file report found
  rw [task?_cancelWaiting, Option.map_eq_some_iff] at found
  obtain ⟨old, oldFound, same⟩ := found
  split at same
  · cases same
  · rw [same] at oldFound
    exact reports.waiting file report oldFound

theorem AllReports.take (reports : state.AllReports holds) {file : String} {outcome : Outcome}
    (gives : ∀ report, outcome = .reported report → holds report) :
    (state.take file outcome).AllReports holds := by
  cases outcome with
  | skipped => exact ⟨reports.taken, reports.waiting⟩
  | failed fault => exact ⟨reports.taken, reports.waiting⟩
  | reported report =>
      have withReport : ({ state with reports := state.reports ++ [report] } : RunState).AllReports
          holds := by
        refine ⟨?_, reports.waiting⟩
        intro other member
        rcases List.mem_append.mp member with earlier | last
        · exact reports.taken other earlier
        · rw [List.mem_singleton.mp last]
          exact gives report rfl
      rw [RunState.take]
      split
      · exact withReport.cancelWaiting
      · exact withReport

/-- What holds of every report that the work yields holds after each step of all
reports collected. -/
theorem AllReports.step {step : RunStep}
    (gives : ∀ file cancel report, work file cancel = .ok report → holds report)
    (reports : state.AllReports holds) (taken : state.step? workers work step = some next) :
    next.AllReports holds := by
  rcases step?_cases taken with ⟨file, -, -, -, rfl⟩ | ⟨file, readings, began, -, -, rfl⟩ |
    ⟨-, rfl⟩ | ⟨file, -, -, -, ⟨-, rfl⟩ | ⟨outcome, finished, rfl⟩⟩
  · exact reports.setTask file nofun
  · refine reports.setTask file ?_
    intro report same
    rw [TaskState.finished.injEq, RunState.outcome] at same
    split at same
    · cases same
    · split at same
      · rename_i worked
        cases same
        exact gives _ _ report worked
      · cases same
  · exact ⟨reports.taken, reports.waiting⟩
  · exact ⟨reports.taken, reports.waiting⟩
  · have collecting : (state.collecting file).AllReports holds := ⟨reports.taken, reports.waiting⟩
    refine collecting.take ?_
    rintro report rfl
    exact reports.waiting file report finished

/-- What the work of every task gives is what a run takes. -/
theorem allReports_steps (gives : ∀ file cancel report, work file cancel = .ok report → holds report)
    (files : List String) (workers : Nat) (sequence : List RunStep) :
    ((initial files).steps workers work sequence).AllReports holds :=
  steps_keeps (fun _ _ _ _ reports taken => reports.step gives taken) (allReports_initial files)

end RunState

/-! ## The result -/

/-- A result decides, counts and groups by all records of some reports. -/
structure AuditResult.SeesAll (result : AuditResult) (reports : List FileReport) : Prop where
  /-- Whatever was merged, a record that blocks blocks the run. -/
  blocked : ∀ threshold, result.isBlocked threshold = true ↔
    ∃ report ∈ reports, ∃ v ∈ report.violations, v.Blocks threshold
  /-- The command fails on its findings when the run is blocked. -/
  exits : ∀ (request : CheckRequest) (display : Display),
    (Program.report request result display).exitCode = Program.findingsExit ↔
      ∃ report ∈ reports, ∃ v ∈ report.violations, v.Blocks request.failOn
  counted : (Severity.all.map result.count).sum = result.violations.length
  /-- There is one group for every file, with its records. -/
  distinct : (result.byFile.map (·.1)).Nodup
  groups : ∀ group ∈ result.byFile, group.2 ≠ [] ∧
    ∀ v, v ∈ group.2 ↔ v ∈ result.violations ∧ v.span.file = group.1
  /-- The groups are blocks of the records, in their order. -/
  joined : result.byFile.flatMap (·.2) = result.violations

/-- The result of a run sums up the reports that were collected. -/
theorem RunState.seesAll_of_result {state : RunState} {result : AuditResult}
    (produced : ∀ report ∈ state.reports, report.IsProduced)
    (ended : state.result = .ok result) : result.SeesAll state.reports := by
  have violations : result.violations = Report.merge (state.reports.map (·.violations)) := by
    rw [RunState.result] at ended
    split at ended
    · cases ended
    · cases ended
      rfl
  have graded : ∀ part ∈ state.reports.map (·.violations), ∀ v ∈ part, v.IsGraded := by
    intro part member
    obtain ⟨report, listed, rfl⟩ := List.mem_map.mp member
    exact (produced report listed).isGraded
  have blocked : ∀ threshold, result.isBlocked threshold = true ↔
      ∃ report ∈ state.reports, ∃ v ∈ report.violations, v.Blocks threshold := by
    intro threshold
    rw [AuditResult.isBlocked_iff, violations, Report.exists_blocks_merge_iff graded]
    simp only [List.mem_map, exists_exists_and_eq_and]
  refine
    { blocked := blocked
      exits := ?_
      counted := AuditResult.sum_count result
      distinct := AuditResult.nodup_files_byFile result
      groups := fun group member => AuditResult.mem_group_byFile member
      joined := ?_ }
  · intro request display
    have code : (Program.report request result display).exitCode =
        if result.isBlocked request.failOn then Program.findingsExit else 0 := rfl
    rw [← blocked, code]
    cases result.isBlocked request.failOn <;> decide
  · apply AuditResult.flatMap_byFile
    rw [violations]
    exact Report.pairwise_file_ofViolations _

/-- The result of a run sees every record of the reports that were taken,
however the run was scheduled. -/
theorem RunState.result_seesAll (work : FileWork)
    (produces : ∀ file cancel report, work file cancel = .ok report → report.IsProduced)
    (files : List String) (workers : Nat) (sequence : List RunStep) (state : RunState)
    (reached : (initial files).steps workers work sequence = state) (result : AuditResult)
    (ended : state.result = .ok result) : result.SeesAll state.reports := by
  have reports := allReports_steps produces files workers sequence
  rw [reached] at reports
  exact seesAll_of_result reports.taken ended

/-- Two dumps of one file, both of a module without a name. -/
def namelessDumps : FileTree :=
  let document := "\x7b\"kind\": \"module\", \"attributes\": \x7b\"file\": \"b.ex\"\x7d\x7d"
  .directory [("a.ast.json", .file document.toUTF8.toList),
    ("b.ast.json", .file document.toUTF8.toList)]

/-- Two workers; the second dump is collected first. -/
def secondFirst : List RunStep :=
  [.start "a.ast.json", .start "b.ast.json", .finish "b.ast.json" .never,
    .collect "b.ast.json", .finish "a.ast.json" .never, .collect "a.ast.json"]

/-- Both dumps give the same record, which blocks the run once. -/
theorem RunState.result_seesAll_nameless :
    ∃ state result,
      (initial ["a.ast.json", "b.ast.json"]).steps 2
        (Engine.ofDefaults.dumpWork namelessDumps fun _ => .zero false) secondFirst = state ∧
      state.result = .ok result ∧
      state.reports.map (·.file) = ["b.ex", "b.ex"] ∧
      result.isBlocked .error = true ∧ result.SeesAll state.reports := by
  generalize reached : (initial ["a.ast.json", "b.ast.json"]).steps 2
    (Engine.ofDefaults.dumpWork namelessDumps fun _ => .zero false) secondFirst = state
  have checked : state.failure = none ∧ state.reports.map (·.file) = ["b.ex", "b.ex"] ∧
      state.reports.any (fun report => report.violations.any (·.severity == .error)) = true := by
    rw [← reached]
    decide +kernel
  obtain ⟨unfailed, sameFile, someError⟩ := checked
  obtain ⟨result, ended⟩ : ∃ result, state.result = .ok result := by
    rw [RunState.result, unfailed]
    exact ⟨_, rfl⟩
  have sees := result_seesAll _ (fun _ _ _ reported => Engine.isProduced_of_dumpWork reported)
    _ _ _ state reached result ended
  refine ⟨state, result, rfl, ended, sameFile, ?_, sees⟩
  rw [sees.blocked]
  obtain ⟨report, listed, holdsError⟩ := List.any_eq_true.mp someError
  obtain ⟨v, member, isError⟩ := List.any_eq_true.mp holdsError
  exact ⟨report, listed, v, member, Or.inl (by simpa using isError)⟩

end StyleAudit
