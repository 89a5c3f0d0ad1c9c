import StyleAudit.Proofs.Audit.Accounting

/-!
# The number of files announced as skipped

When a report of a cancelled run is taken, the collector cancels every task that
can be cancelled and records its file as skipped. A task that is cancelled already
can be cancelled again, so a second report taken after the cancellation has the
same files recorded once more. The announcement counts the records while the result
has every file once: `recounted` are the files recorded again in the course of a
run, and the two numbers agree exactly when there are none
(`announces_recounted_files`).
-/

namespace StyleAudit

def TaskState.isCancelled : TaskState → Bool
  | cancelled => true
  | _ => false

namespace RunState

variable {files : List String} {work : FileWork} {workers : Nat} {state next : RunState}
  {file : String} {again : List String}

/-! ## Files recorded again -/

/-- The files whose tasks have a property. -/
def filesWhose (holds : TaskState → Bool) (state : RunState) : List String :=
  (state.tasks.filter fun entry => holds entry.2).map (·.1)

/-- The step takes a report of a cancelled run, and cancels what can be
cancelled. -/
def sweeps (state : RunState) : RunStep → Bool
  | .collect file =>
    state.cancelRequested && !(state.failure.isSome || state.collected.contains file) &&
      (state.reportOf? file).isSome
  | _ => false

/-- The files that a sequence of steps records as skipped although they are
recorded already. -/
def recounted (workers : Nat) (work : FileWork) (state : RunState) : List RunStep → List String
  | [] => []
  | step :: rest =>
    (if state.sweeps step then state.filesWhose TaskState.isCancelled else []) ++
      recounted workers work ((state.step? workers work step).getD state) rest

theorem mem_filesWhose {holds : TaskState → Bool} (nodup : (state.tasks.map (·.1)).Nodup) :
    file ∈ state.filesWhose holds ↔ ∃ task, state.task? file = some task ∧ holds task = true := by
  rw [filesWhose, List.mem_map]
  constructor
  · intro found
    obtain ⟨⟨_, task⟩, listed, rfl⟩ := found
    obtain ⟨member, has⟩ := List.mem_filter.mp listed
    exact ⟨task, task?_of_mem nodup member, has⟩
  · intro found
    obtain ⟨task, found, has⟩ := found
    exact ⟨(file, task), List.mem_filter.mpr ⟨mem_of_task? found, has⟩, rfl⟩

theorem mem_cancelledFiles (nodup : (state.tasks.map (·.1)).Nodup) :
    file ∈ state.filesWhose TaskState.isCancelled ↔ state.task? file = some .cancelled := by
  rw [mem_filesWhose nodup]
  constructor
  · intro found
    obtain ⟨task, found, isCancelled⟩ := found
    cases task with
    | cancelled => exact found
    | _ => cases isCancelled
  · intro found
    exact ⟨.cancelled, found, rfl⟩

theorem count_filesWhose (holds : TaskState → Bool) (nodup : (state.tasks.map (·.1)).Nodup)
    (file : String) :
    (state.filesWhose holds).count file = if file ∈ state.filesWhose holds then 1 else 0 := by
  have distinct : (state.filesWhose holds).Nodup := nodup.sublist (List.filter_sublist.map _)
  exact distinct.count

/-- Every file is recorded once, and once more each time that it is recorded
again. -/
def CountsAgain (state : RunState) (again : List String) : Prop :=
  ∀ file, state.skipped.count file = (if file ∈ state.skipped then 1 else 0) + again.count file

namespace CountsAgain

/-- A file is recorded for the first time. -/
theorem record (counts : state.CountsAgain again) (isNew : file ∉ state.skipped)
    (same : next.skipped = state.skipped ++ [file]) : next.CountsAgain again := by
  intro other
  rw [same, List.count_append, counts other]
  by_cases here : other = file
  · subst here
    simp [isNew, Nat.add_comm]
  · simp [here, Ne.symm here]

/-- The files of all tasks that can be cancelled are recorded. Those of the tasks
that wait are new, and those of the tasks that are cancelled are not. -/
theorem sweep (counts : state.CountsAgain again) (nodup : (state.tasks.map (·.1)).Nodup)
    (recorded : ∀ file, state.task? file = some .cancelled → file ∈ state.skipped)
    (isNew : ∀ file, state.task? file = some .pending → file ∉ state.skipped) :
    state.cancelWaiting.CountsAgain (again ++ state.filesWhose TaskState.isCancelled) := by
  intro file
  have swept : state.cancelWaiting.skipped = state.skipped ++ state.filesWhose isCancellable := rfl
  rw [swept, List.count_append, List.count_append, counts file, count_filesWhose _ nodup,
    count_filesWhose _ nodup]
  simp only [List.mem_append, mem_filesWhose nodup]
  cases found : state.task? file with
  | none => simp
  | some task =>
      cases task with
      | pending => simp [isNew file found, isCancellable, TaskState.isCancelled, Nat.add_comm]
      | cancelled => simp [recorded file found, isCancellable, TaskState.isCancelled, Nat.add_assoc]
      | running began => simp [isCancellable, TaskState.isCancelled]
      | finished outcome => simp [isCancellable, TaskState.isCancelled]

end CountsAgain

/-! ## Steps -/

theorem sweeps_collect_iff :
    state.sweeps (.collect file) = true ↔
      state.cancelRequested = true ∧ state.failure = none ∧ file ∉ state.collected ∧
        ∃ report, state.task? file = some (.finished (.reported report)) := by
  have reports : (state.reportOf? file).isSome = true ↔
      ∃ report, state.task? file = some (.finished (.reported report)) := by
    rw [reportOf?]
    split
    · rename_i report found
      simp [found]
    · rename_i noReport
      simp only [Option.isSome_none, Bool.false_eq_true, false_iff, not_exists]
      exact noReport
  rw [sweeps, Bool.and_eq_true, Bool.and_eq_true, reports]
  simp [and_assoc]

theorem exists_step?_of_sweeps {step : RunStep} (sweeping : state.sweeps step = true)
    (workers : Nat) (work : FileWork) : ∃ next, state.step? workers work step = some next := by
  cases step with
  | collect file =>
      obtain ⟨_, unfailed, fresh, report, found⟩ := sweeps_collect_iff.mp sweeping
      rw [step?, if_neg (by simp [unfailed, fresh]), found]
      exact ⟨_, rfl⟩
  | _ => cases sweeping

theorem sweeps_eq_false {task : TaskState} (found : state.task? file = some task)
    (other : ∀ report, task ≠ .finished (.reported report)) :
    state.sweeps (.collect file) = false := by
  rw [← Bool.not_eq_true, sweeps_collect_iff, found]
  intro sweeping
  obtain ⟨_, _, _, report, same⟩ := sweeping
  exact other report (Option.some.inj same)

/-- A file is recorded when its task is cancelled or collected, not before. -/
theorem IsAccounted.not_mem_skipped (accounted : IsAccounted files work state) {task : TaskState}
    (found : state.task? file = some task) (goesOn : task ≠ .cancelled)
    (fresh : file ∉ state.collected) : file ∉ state.skipped := by
  intro recorded
  rcases (accounted.skipped file).mp recorded with isCancelled | ⟨collected, _⟩
  · rw [found] at isCancelled
    exact goesOn (Option.some.inj isCancelled)
  · exact fresh collected

namespace CountsAgain

/-- A step that does not sweep and records nothing counts no file again. -/
theorem quiet (counts : state.CountsAgain again) {step : RunStep}
    (noSweep : state.sweeps step = false) (same : next.skipped = state.skipped) :
    next.CountsAgain
      (again ++ if state.sweeps step then state.filesWhose TaskState.isCancelled else []) := by
  intro file
  rw [noSweep, if_neg Bool.false_ne_true, List.append_nil, same]
  exact counts file

/-- To take a report sweeps exactly when the run is cancelled. -/
theorem takeReport (counts : state.CountsAgain again) (accounted : IsAccounted files work state)
    (distinct : files.Nodup) (unfailed : state.failure = none) (fresh : file ∉ state.collected)
    {report : FileReport} (found : state.task? file = some (.finished (.reported report))) :
    ((state.collecting file).take file (.reported report)).CountsAgain
      (again ++ if state.sweeps (.collect file) then state.filesWhose TaskState.isCancelled
        else []) := by
  by_cases requested : state.cancelRequested = true
  · have sweeping : state.sweeps (.collect file) = true :=
      sweeps_collect_iff.mpr ⟨requested, unfailed, fresh, report, found⟩
    have recorded : ∀ other, state.task? other = some .cancelled → other ∈ state.skipped :=
      fun other isCancelled => (accounted.skipped other).mpr (Or.inl isCancelled)
    have isNew : ∀ other, state.task? other = some .pending → other ∉ state.skipped :=
      fun other waits =>
        accounted.not_mem_skipped waits nofun (accounted.not_collected waits rfl)
    have taken : CountsAgain
        { state.collecting file with reports := state.reports ++ [report] } again := counts
    rw [sweeping, if_pos rfl, take,
      if_pos (show (state.collecting file).cancelRequested = true from requested)]
    exact taken.sweep (accounted.nodup distinct) recorded isNew
  · have noSweep : state.sweeps (.collect file) = false := by
      rw [← Bool.not_eq_true, sweeps_collect_iff]
      exact fun sweeping => requested sweeping.1
    apply counts.quiet noSweep
    rw [take, if_neg (show ¬(state.collecting file).cancelRequested = true from requested)]
    rfl

/-- One step counts a file again exactly when it sweeps over its cancelled task. -/
theorem step (counts : state.CountsAgain again) (accounted : IsAccounted files work state)
    (distinct : files.Nodup) {step : RunStep} (taken : state.step? workers work step = some next) :
    next.CountsAgain
      (again ++ if state.sweeps step then state.filesWhose TaskState.isCancelled else []) := by
  rcases step?_cases taken with ⟨file, rfl, -, -, rfl⟩ | ⟨file, readings, began, rfl, -, rfl⟩ |
    ⟨rfl, rfl⟩ | ⟨file, rfl, unfailed, fresh, ⟨isCancelled, rfl⟩ | ⟨outcome, found, rfl⟩⟩
  · exact counts.quiet rfl rfl
  · exact counts.quiet rfl rfl
  · exact counts.quiet rfl rfl
  · exact counts.quiet (sweeps_eq_false isCancelled nofun) rfl
  · cases outcome with
    | failed fault => exact counts.quiet (sweeps_eq_false found nofun) rfl
    | skipped =>
        rw [sweeps_eq_false found nofun, if_neg Bool.false_ne_true, List.append_nil]
        exact counts.record (accounted.not_mem_skipped found nofun fresh) rfl
    | reported report => exact counts.takeReport accounted distinct unfailed fresh found

end CountsAgain

/-- Every schedule counts a file again each time that it sweeps over its cancelled
task. -/
theorem CountsAgain.steps (counts : state.CountsAgain again)
    (accounted : IsAccounted files work state) (distinct : files.Nodup) (workers : Nat)
    (sequence : List RunStep) :
    (state.steps workers work sequence).CountsAgain
      (again ++ state.recounted workers work sequence) := by
  induction sequence generalizing state again with
  | nil =>
      rw [recounted, List.append_nil]
      exact counts
  | cons step rest inductionHypothesis =>
      rw [recounted, ← List.append_assoc]
      have next : ((state.step? workers work step).getD state).CountsAgain
            (again ++ if state.sweeps step then state.filesWhose TaskState.isCancelled else []) ∧
          IsAccounted files work ((state.step? workers work step).getD state) := by
        cases taken : state.step? workers work step with
        | none =>
            -- A step that cannot be taken does not sweep.
            have quiet : state.sweeps step = false := by
              by_contra sweeping
              obtain ⟨next, goes⟩ := exists_step?_of_sweeps (by simpa using sweeping) workers work
              rw [taken] at goes
              cases goes
            rw [quiet, if_neg Bool.false_ne_true, List.append_nil]
            exact ⟨counts, accounted⟩
        | some next => exact ⟨counts.step accounted distinct taken, accounted.step distinct taken⟩
      exact inductionHypothesis next.1 next.2

theorem countsAgain_steps (distinct : files.Nodup) (workers : Nat) (work : FileWork)
    (sequence : List RunStep) :
    ((initial files).steps workers work sequence).CountsAgain
      ((initial files).recounted workers work sequence) := by
  have first : (initial files).CountsAgain [] := fun _ => rfl
  exact first.steps (isAccounted_initial files work) distinct workers sequence

/-- No file is counted again exactly when each sweep finds no task that is already
cancelled. -/
theorem recounted_eq_nil_iff {sequence : List RunStep} :
    state.recounted workers work sequence = [] ↔
      ∀ before step after, sequence = before ++ step :: after →
        (state.steps workers work before).sweeps step = true →
          (state.steps workers work before).filesWhose TaskState.isCancelled = [] := by
  induction sequence generalizing state with
  | nil =>
      simp [recounted]
  | cons first rest inductionHypothesis =>
      rw [recounted, List.append_eq_nil_iff, inductionHypothesis]
      constructor
      · intro both before step after split sweeping
        cases before with
        | nil =>
            cases split
            have here := both.1
            rwa [if_pos (show state.sweeps first = true from sweeping)] at here
        | cons earlier others =>
            cases split
            exact both.2 others step after rfl sweeping
      · intro every
        constructor
        · by_cases sweeping : state.sweeps first = true
          · rw [if_pos sweeping]
            exact every [] first rest rfl sweeping
          · rw [if_neg sweeping]
        · intro before step after split sweeping
          exact every (first :: before) step after (by rw [split]; rfl) sweeping

/-- Once a task is cancelled, no report is taken after the cancellation. -/
def SweepsOnce (files : List String) (workers : Nat) (work : FileWork)
    (sequence : List RunStep) : Prop :=
  ∀ before step after, sequence = before ++ step :: after →
    ((initial files).steps workers work before).sweeps step = true →
      ∀ file, ((initial files).steps workers work before).task? file ≠ some .cancelled

theorem recounted_eq_nil_iff_sweepsOnce (distinct : files.Nodup) (workers : Nat) (work : FileWork)
    (sequence : List RunStep) :
    (initial files).recounted workers work sequence = [] ↔
      SweepsOnce files workers work sequence := by
  have noneCancelled : ∀ before : List RunStep,
      ((initial files).steps workers work before).filesWhose TaskState.isCancelled = [] ↔
        ∀ file, ((initial files).steps workers work before).task? file ≠ some .cancelled := by
    intro before
    have nodup := (isAccounted_steps distinct workers work before).nodup distinct
    rw [List.eq_nil_iff_forall_not_mem]
    simp only [mem_cancelledFiles nodup, ne_eq]
  simp only [recounted_eq_nil_iff, noneCancelled, SweepsOnce]

namespace CountsAgain

/-- The records are the distinct files, and the files recorded again. -/
theorem skipped_perm (counts : state.CountsAgain again) :
    state.skipped.Perm (Text.sortedDistinct state.skipped ++ again) := by
  rw [List.perm_iff_count]
  intro file
  rw [List.count_append, counts file, (Text.nodup_sortedDistinct _).count]
  simp only [Text.mem_sortedDistinct]

theorem nodup_iff (counts : state.CountsAgain again) : state.skipped.Nodup ↔ again = [] := by
  constructor
  · intro nodup
    have sameCount : ∀ file, again.count file = 0 := by
      intro file
      have once := counts file
      rw [nodup.count] at once
      omega
    exact List.eq_nil_iff_forall_not_mem.mpr fun file => List.count_eq_zero.mp (sameCount file)
  · intro none
    have distinct := counts.skipped_perm
    rw [none, List.append_nil] at distinct
    exact distinct.nodup_iff.mpr (Text.nodup_sortedDistinct _)

end CountsAgain

/-- The only warning of a run is that it was cut short, with the length of its list
of skipped files. -/
theorem warning_mem_announcements (state : RunState) (asked : Int) (text : String) :
    .warning text ∈ state.announcements asked ↔
      state.wasCutShort = true ∧
        text = s!"Run cancelled; {state.skipped.length} file(s) not analyzed" := by
  rw [announcements, List.mem_append, List.mem_cons, List.mem_map]
  constructor
  · rintro ((isStep | ⟨report, _, isNote⟩) | last)
    · cases isStep
    · cases isNote
    · split at last
      · rename_i cut
        cases List.mem_singleton.mp last
        exact ⟨cut, rfl⟩
      · cases last
  · rintro ⟨cut, rfl⟩
    rw [if_pos cut]
    exact Or.inr (List.mem_singleton_self _)

end RunState

namespace Engine

open RunState

/-- A run announces the number of files skipped together with the files that it
recorded again. These are the files whose tasks are cancelled already when the
collector takes a report after the cancellation, so the number is right, and every
file recorded once, exactly when no report is taken in this way after a task was
cancelled. -/
theorem announces_recounted_files (engine : Engine) (tree : FileTree) (clocks : String → Clock)
    (paths files : List String) (discovered : tree.discover dumpPatterns paths = .ok files)
    (workers : Nat) (sequence : List RunStep) (state : RunState)
    (reached : (initial files).steps workers
      (fun file => engine.dumpWork tree (clocks file) file) sequence = state)
    (again : List String)
    (counted : (initial files).recounted workers
      (fun file => engine.dumpWork tree (clocks file) file) sequence = again)
    (result : AuditResult) (returned : state.result = .ok result) :
    state.skipped.Perm (result.skipped ++ again) ∧
      (∀ asked text, .warning text ∈ state.announcements asked ↔ result.cancelled = true ∧
        text = s!"Run cancelled; {result.skipped.length + again.length} file(s) not analyzed") ∧
      (state.skipped.length = result.skipped.length ↔
        SweepsOnce files workers (fun file => engine.dumpWork tree (clocks file) file) sequence) ∧
      (state.skipped.Nodup ↔
        SweepsOnce files workers (fun file => engine.dumpWork tree (clocks file) file) sequence) := by
  have distinct : files.Nodup := Text.nodup_of_pairwise (FileTree.pairwise_of_discover discovered)
  have counts := countsAgain_steps distinct workers
    (fun file => engine.dumpWork tree (clocks file) file) sequence
  rw [reached, counted] at counts
  have sameResult : result.skipped = Text.sortedDistinct state.skipped ∧
      result.cancelled = state.wasCutShort := by
    rw [RunState.result] at returned
    split at returned
    · cases returned
    · cases returned
      exact ⟨rfl, rfl⟩
  have perm := counts.skipped_perm
  rw [← sameResult.1] at perm
  have length := perm.length_eq
  rw [List.length_append] at length
  refine ⟨perm, ?_, ?_, ?_⟩
  · intro asked text
    rw [warning_mem_announcements, ← length, sameResult.2]
  · rw [← recounted_eq_nil_iff_sweepsOnce distinct, counted, ← List.length_eq_zero_iff]
    omega
  · rw [counts.nodup_iff, ← counted, recounted_eq_nil_iff_sweepsOnce distinct]

/-- One worker takes the first two dumps. The run is cancelled while the second is
under way, and the reports of both are taken after that. -/
def sweptTwice : List RunStep :=
  [.start "a.ast.json", .finish "a.ast.json" .never, .start "b.ast.json", .requestCancel,
    .collect "a.ast.json", .finish "b.ast.json" .never, .collect "b.ast.json",
    .collect "c.ast.json"]

theorem discover_threeDumps :
    threeDumps.discover dumpPatterns ["c.ast.json", "b.ast.json", "a.ast.json"] =
      .ok ["a.ast.json", "b.ast.json", "c.ast.json"] := by
  have parts : ["c.ast.json", "b.ast.json", "a.ast.json"].mapM
      (threeDumps.dumpsAt dumpPatterns) =
        .ok [["c.ast.json"], ["b.ast.json"], ["a.ast.json"]] := by
    decide +kernel
  rw [FileTree.discover, parts]
  exact congrArg Except.ok (Text.sortedDistinct_eq (by decide) (by simp; tauto))

theorem announces_recounted_files_swept_twice :
    ∃ state result, (initial ["a.ast.json", "b.ast.json", "c.ast.json"]).steps 1
        (fun file => ofDefaults.dumpWork threeDumps (fun _ => .zero false) file) sweptTwice =
          state ∧
      state.result = .ok result ∧ state.skipped.Perm (result.skipped ++ ["c.ast.json"]) ∧
      ∀ asked text, .warning text ∈ state.announcements asked ↔ result.cancelled = true ∧
        text = s!"Run cancelled; {result.skipped.length + 1} file(s) not analyzed" := by
  have again : (initial ["a.ast.json", "b.ast.json", "c.ast.json"]).recounted 1
      (fun file => ofDefaults.dumpWork threeDumps (fun _ => .zero false) file) sweptTwice =
        ["c.ast.json"] := by
    decide +kernel
  have unfailed : ((initial ["a.ast.json", "b.ast.json", "c.ast.json"]).steps 1
      (fun file => ofDefaults.dumpWork threeDumps (fun _ => .zero false) file) sweptTwice).failure =
        none := by
    decide +kernel
  refine ⟨_, _, rfl, by rw [RunState.result, unfailed], ?_⟩
  obtain ⟨perm, announced, _⟩ :=
    announces_recounted_files ofDefaults threeDumps (fun _ _ => .zero false) _ _
      discover_threeDumps 1 sweptTwice _ rfl _ again _ (by rw [RunState.result, unfailed])
  exact ⟨perm, announced⟩

/-- The file of the third task is recorded once for each of the two reports, so the
run announces two files and its result has one. -/
theorem announces_cancelled_file_twice :
    ∃ files state, threeDumps.discover dumpPatterns
        ["c.ast.json", "b.ast.json", "a.ast.json"] = .ok files ∧
      (initial files).steps 1
        (fun file => ofDefaults.dumpWork threeDumps (fun _ => .zero false) file) sweptTwice =
          state ∧
      state.isComplete = true ∧
      (∃ result, state.result = .ok result ∧ result.skipped = ["c.ast.json"]) ∧
      .warning "Run cancelled; 2 file(s) not analyzed" ∈ state.announcements 1 := by
  refine ⟨_, _, discover_threeDumps, rfl, ?_⟩
  generalize reached : (initial ["a.ast.json", "b.ast.json", "c.ast.json"]).steps 1
    (fun file => ofDefaults.dumpWork threeDumps (fun _ => .zero false) file) sweptTwice = state
  have ended : state.isComplete = true ∧ state.failure = none ∧ state.wasCutShort = true ∧
      state.skipped = ["c.ast.json", "c.ast.json"] := by
    rw [← reached]
    decide +kernel
  obtain ⟨complete, unfailed, cut, skipped⟩ := ended
  refine ⟨complete, ⟨_, by rw [RunState.result, unfailed], ?_⟩, ?_⟩
  · rw [skipped]
    exact Text.sortedDistinct_eq (by decide) (by simp)
  · rw [warning_mem_announcements, skipped]
    exact ⟨cut, rfl⟩

end Engine
end StyleAudit
