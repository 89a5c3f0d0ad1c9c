import StyleAudit.Audit.Run
import StyleAudit.Proofs.Table

/-!
# Schedules of a run

What a step of a run can be (`step?_cases`), and what every schedule keeps
(`isAccounted_steps`): tasks that are over stay as they are, each report that
was taken belongs to one collected task, and a file is recorded as skipped
exactly when its task is cancelled or was collected without a report.
-/

namespace StyleAudit

/-- The task will not change any more. -/
def TaskState.isOver : TaskState → Bool
  | cancelled | finished _ => true
  | pending | running _ => false

/-- What the work on a file gave, unless the file was skipped. -/
def Outcome.result? : Outcome → Option (Except TaskFault FileReport)
  | skipped => none
  | reported report => some (.ok report)
  | failed fault => some (.error fault)

namespace RunState

variable {files : List String} {work : FileWork} {workers : Nat} {state next : RunState}
  {file other : String} {old new task : TaskState}

/-- The report that the task of a file came to. -/
def reportOf? (state : RunState) (file : String) : Option FileReport :=
  match state.task? file with
  | some (.finished (.reported report)) => some report
  | _ => none

/-- The run with the task of one more file collected. -/
def collecting (state : RunState) (file : String) : RunState :=
  { state with collected := file :: state.collected }

/-! ## Tasks -/

theorem setTask_tasks (state : RunState) (file : String) (task : TaskState) :
    (state.setTask file task).tasks =
      state.tasks.map fun entry => (entry.1, if entry.1 = file then task else entry.2) := by
  refine List.map_congr_left fun entry _ => ?_
  split
  · rename_i here
    rw [here]
  · rfl

@[simp]
theorem task?_setTask (state : RunState) (file : String) (task : TaskState) (other : String) :
    (state.setTask file task).task? other =
      (state.task? other).map fun old => if other = file then task else old := by
  rw [task?, setTask_tasks]
  exact lookup_map_values (fun name old => if name = file then task else old) _ _

theorem cancelWaiting_tasks (state : RunState) :
    state.cancelWaiting.tasks =
      state.tasks.map fun entry =>
        (entry.1, if isCancellable entry.2 then .cancelled else entry.2) := by
  refine List.map_congr_left fun entry _ => ?_
  split <;> rfl

@[simp]
theorem task?_cancelWaiting (state : RunState) (file : String) :
    state.cancelWaiting.task? file =
      (state.task? file).map fun task => if isCancellable task then .cancelled else task := by
  rw [task?, cancelWaiting_tasks]
  exact lookup_map_values (fun (_ : String) task =>
    if isCancellable task then .cancelled else task) _ _

theorem mem_of_task? (found : state.task? file = some task) : (file, task) ∈ state.tasks := by
  obtain ⟨before, after, split, _⟩ := List.lookup_eq_some_iff.mp found
  rw [split]
  exact List.mem_append_right _ List.mem_cons_self

theorem task?_of_mem (nodup : (state.tasks.map (·.1)).Nodup) (member : (file, task) ∈ state.tasks) :
    state.task? file = some task := by
  obtain ⟨before, after, split⟩ := List.append_of_mem member
  refine List.lookup_eq_some_iff.mpr ⟨before, after, split, ?_⟩
  intro entry earlier
  rw [split, List.map_append, List.map_cons] at nodup
  have apart := (List.nodup_append.mp nodup).2.2 entry.1 (List.mem_map_of_mem earlier) file
    List.mem_cons_self
  simpa using apart.symm

theorem exists_task?_iff : (∃ task, state.task? file = some task) ↔
    file ∈ state.tasks.map (·.1) := by
  constructor
  · rintro ⟨task, found⟩
    exact List.mem_map_of_mem (mem_of_task? found)
  · intro member
    obtain ⟨⟨_, task⟩, listed, rfl⟩ := List.mem_map.mp member
    cases found : state.task? _ with
    | none =>
        have absent := List.lookup_eq_none_iff.mp found _ listed
        simp at absent
    | some task => exact ⟨task, rfl⟩

theorem mem_skipped_cancelWaiting (nodup : (state.tasks.map (·.1)).Nodup) :
    file ∈ state.cancelWaiting.skipped ↔
      file ∈ state.skipped ∨ ∃ task, state.task? file = some task ∧ isCancellable task = true := by
  rw [cancelWaiting, List.mem_append, List.mem_map]
  apply or_congr_right
  constructor
  · rintro ⟨⟨_, task⟩, waits, rfl⟩
    obtain ⟨member, cancellable⟩ := List.mem_filter.mp waits
    exact ⟨task, task?_of_mem nodup member, cancellable⟩
  · rintro ⟨task, found, cancellable⟩
    exact ⟨(file, task), List.mem_filter.mpr ⟨mem_of_task? found, cancellable⟩, rfl⟩

/-! ## Steps -/

/-- What a step does and when it can be taken. -/
theorem step?_cases {step : RunStep} (taken : state.step? workers work step = some next) :
    (∃ file, step = .start file ∧ state.task? file = some .pending ∧
        state.runningCount < workers ∧
        next = state.setTask file (.running state.cancelRequested)) ∨
      (∃ file readings began, step = .finish file readings ∧
        state.task? file = some (.running began) ∧
        next = state.setTask file (.finished (state.outcome work file began readings))) ∨
      (step = .requestCancel ∧ next = { state with cancelRequested := true }) ∨
      ∃ file, step = .collect file ∧ state.failure = none ∧ file ∉ state.collected ∧
        ((state.task? file = some .cancelled ∧ next = state.collecting file) ∨
          ∃ outcome, state.task? file = some (.finished outcome) ∧
            next = (state.collecting file).take file outcome) := by
  cases step with
  | start file =>
      rw [step?] at taken
      split at taken
      · rename_i pending
        split at taken
        · rename_i free
          exact Or.inl ⟨file, rfl, pending, free, (Option.some.inj taken).symm⟩
        · cases taken
      · cases taken
  | finish file readings =>
      rw [step?] at taken
      split at taken
      · rename_i began running
        exact Or.inr (Or.inl ⟨file, readings, began, rfl, running, (Option.some.inj taken).symm⟩)
      · cases taken
  | requestCancel => exact Or.inr (Or.inr (Or.inl ⟨rfl, (Option.some.inj taken).symm⟩))
  | collect file =>
      refine Or.inr (Or.inr (Or.inr ⟨file, rfl, ?_⟩))
      rw [step?] at taken
      split at taken
      · cases taken
      · rename_i allowed
        have fresh : state.failure = none ∧ file ∉ state.collected := by
          simpa using allowed
        refine ⟨fresh.1, fresh.2, ?_⟩
        split at taken
        · rename_i isCancelled
          exact Or.inl ⟨isCancelled, (Option.some.inj taken).symm⟩
        · rename_i outcome isFinished
          exact Or.inr ⟨outcome, isFinished, (Option.some.inj taken).symm⟩
        · cases taken

/-- A task that does not skip its file comes to what the work gives under some
readings, which are all unset when the run is not cancelled. -/
theorem work_of_outcome {began : Bool} {readings : Cancellation}
    {result : Except TaskFault FileReport}
    (found : (state.outcome work file began readings).result? = some result) :
    ∃ cancel, (state.cancelRequested = false → cancel = .never) ∧ work file cancel = result := by
  rw [outcome] at found
  split at found
  · cases found
  · refine ⟨fun index => state.cancelRequested && readings (index + 1), ?_, ?_⟩
    · intro undisturbed
      rw [undisturbed]
      rfl
    · split at found
      · rename_i report worked
        cases found
        exact worked
      · rename_i fault raised
        cases found
        exact raised

/-! ## What every schedule keeps -/

/-- What each step of a sequence keeps holds at its end. -/
theorem steps_keeps {kept : RunState → Prop} {sequence : List RunStep}
    (stepKeeps : ∀ step ∈ sequence, ∀ state next : RunState, kept state →
      state.step? workers work step = some next → kept next) (first : kept state) :
    kept (state.steps workers work sequence) := by
  induction sequence generalizing state with
  | nil => exact first
  | cons step rest inductionHypothesis =>
      -- A step that cannot be taken leaves the state as it is.
      have keptNext : kept ((state.step? workers work step).getD state) := by
        cases taken : state.step? workers work step with
        | none => exact first
        | some next => exact stepKeeps step List.mem_cons_self state next first taken
      exact inductionHypothesis
        (fun later member => stepKeeps later (List.mem_cons_of_mem step member)) keptNext

/-- A run over some files that has lost none of them. -/
structure IsAccounted (files : List String) (work : FileWork) (state : RunState) : Prop where
  /-- There is one task for every file. -/
  names : state.tasks.map (·.1) = files
  /-- A task is collected once, when it is over. -/
  once : state.collected.Nodup
  collected : ∀ file ∈ state.collected, ∃ task, state.task? file = some task ∧ task.isOver = true
  /-- The reports taken are those of the tasks collected. -/
  reports : state.reports = state.collected.reverse.filterMap state.reportOf?
  /-- The files skipped are those of the tasks cancelled or collected without a
  report. -/
  skipped : ∀ file, file ∈ state.skipped ↔ state.task? file = some .cancelled ∨
    (file ∈ state.collected ∧ state.task? file = some (.finished .skipped))
  /-- A fault that was collected ends the run, and nothing else does. -/
  unfailed : state.failure = none → ∀ file ∈ state.collected, ∀ fault,
    state.task? file ≠ some (.finished (.failed fault))
  failed : ∀ fault, state.failure = some fault →
    ∃ file, state.task? file = some (.finished (.failed fault))
  /-- What a task came to is what the work on its file gives. -/
  worked : ∀ file outcome result, state.task? file = some (.finished outcome) →
    outcome.result? = some result →
      ∃ cancel, (state.cancelRequested = false → cancel = .never) ∧ work file cancel = result
  /-- Files are skipped only after a cancellation. -/
  undisturbed : state.cancelRequested = false → ∀ file task, state.task? file = some task →
    task ≠ .cancelled ∧ task ≠ .running true ∧ task ≠ .finished .skipped

/-- A run begins with all its files accounted for. -/
theorem isAccounted_initial (files : List String) (work : FileWork) :
    IsAccounted files work (initial files) := by
  have pending : ∀ file task, (initial files).task? file = some task → task = .pending := by
    intro file task found
    obtain ⟨_, _, same⟩ := List.mem_map.mp (mem_of_task? found)
    exact (congrArg Prod.snd same).symm
  refine
    { names := by simp [initial, Function.comp_def]
      once := List.nodup_nil
      collected := by simp [initial]
      reports := rfl
      skipped := ?_
      unfailed := by simp [initial]
      failed := by simp [initial]
      worked := ?_
      undisturbed := ?_ }
  · intro file
    constructor
    · intro impossible
      cases impossible
    · rintro (isCancelled | ⟨impossible, _⟩)
      · cases pending file _ isCancelled
      · cases impossible
  · intro file outcome result finished
    cases pending file _ finished
  · intro _ file task found
    rw [pending file task found]
    exact ⟨nofun, nofun, nofun⟩

namespace IsAccounted

theorem nodup (accounted : IsAccounted files work state) (distinct : files.Nodup) :
    (state.tasks.map (·.1)).Nodup := by
  rw [accounted.names]
  exact distinct

theorem not_collected (accounted : IsAccounted files work state)
    (found : state.task? file = some task) (goesOn : task.isOver = false) :
    file ∉ state.collected := by
  intro member
  obtain ⟨same, sameFound, ended⟩ := accounted.collected file member
  rw [found] at sameFound
  cases sameFound
  rw [goesOn] at ended
  cases ended

/-- When tasks that are over stay as they are, the reports of collected tasks
do. -/
theorem filterMap_reportOf?
    (stays : ∀ file ∈ state.collected, next.task? file = state.task? file) :
    state.collected.reverse.filterMap next.reportOf? =
      state.collected.reverse.filterMap state.reportOf? := by
  refine List.filterMap_congr fun file member => ?_
  rw [reportOf?, reportOf?, stays file (List.mem_reverse.mp member)]

/-- A task that is not over goes on. -/
theorem setTask (accounted : IsAccounted files work state)
    (found : state.task? file = some old) (goesOn : old.isOver = false)
    (notCancelled : new ≠ .cancelled)
    (worked : ∀ outcome result, new = .finished outcome → outcome.result? = some result →
      ∃ cancel, (state.cancelRequested = false → cancel = .never) ∧ work file cancel = result)
    (undisturbed : state.cancelRequested = false → new ≠ .running true ∧
      new ≠ .finished .skipped) :
    IsAccounted files work (state.setTask file new) := by
  have fresh := accounted.not_collected found goesOn
  have here : (state.setTask file new).task? file = some new := by
    simp [found]
  have elsewhere : ∀ other, other ≠ file →
      (state.setTask file new).task? other = state.task? other := by
    intro other apart
    simp [apart]
  have stays : ∀ other ∈ state.collected,
      (state.setTask file new).task? other = state.task? other := by
    intro other member
    exact elsewhere other fun same => fresh (same ▸ member)
  refine
    { names := ?_
      once := accounted.once
      collected := ?_
      reports := accounted.reports.trans (filterMap_reportOf? stays).symm
      skipped := ?_
      unfailed := ?_
      failed := ?_
      worked := ?_
      undisturbed := ?_ }
  · rw [setTask_tasks, List.map_map]
    exact accounted.names
  · intro other member
    rw [stays other member]
    exact accounted.collected other member
  · intro other
    by_cases same : other = file
    · subst same
      have notSkipped : other ∉ state.skipped := by
        rw [accounted.skipped, found]
        rintro (isCancelled | ⟨member, _⟩)
        · cases isCancelled
          cases goesOn
        · exact fresh member
      rw [here]
      refine iff_of_false notSkipped ?_
      rintro (isCancelled | ⟨member, _⟩)
      · exact notCancelled (Option.some.inj isCancelled)
      · exact fresh member
    · rw [elsewhere other same]
      exact accounted.skipped other
  · intro going other member
    rw [stays other member]
    exact accounted.unfailed going other member
  · intro fault ended
    obtain ⟨other, broken⟩ := accounted.failed fault ended
    have apart : other ≠ file := by
      rintro rfl
      cases found.symm.trans broken
      cases goesOn
    exact ⟨other, (elsewhere other apart).trans broken⟩
  · intro other outcome result finished
    by_cases same : other = file
    · subst same
      rw [here] at finished
      exact worked outcome result (Option.some.inj finished)
    · rw [elsewhere other same] at finished
      exact accounted.worked other outcome result finished
  · intro calm other task taskFound
    by_cases same : other = file
    · subst same
      rw [here] at taskFound
      cases taskFound
      exact ⟨notCancelled, undisturbed calm⟩
    · rw [elsewhere other same] at taskFound
      exact accounted.undisturbed calm other task taskFound

theorem requestCancel (accounted : IsAccounted files work state) :
    IsAccounted files work { state with cancelRequested := true } :=
  { names := accounted.names
    once := accounted.once
    collected := accounted.collected
    reports := accounted.reports
    skipped := accounted.skipped
    unfailed := accounted.unfailed
    failed := accounted.failed
    worked := by
      intro file outcome result finished found
      obtain ⟨cancel, _, gives⟩ := accounted.worked file outcome result finished found
      exact ⟨cancel, nofun, gives⟩
    undisturbed := nofun }

/-- A task that is over is collected; what is taken from it is recorded. -/
theorem collect (accounted : IsAccounted files work state) (fresh : file ∉ state.collected)
    (found : state.task? file = some task) (ended : task.isOver = true)
    {reports : List FileReport} {skipped : List String} {failure : Option TaskFault}
    (takesReport : reports = state.reports ++ (state.reportOf? file).toList)
    (takesSkipped : ∀ other, other ∈ skipped ↔ other ∈ state.skipped ∨
      (other = file ∧ task = .finished .skipped))
    (keepsOn : failure = none → state.failure = none ∧
      ∀ fault, task ≠ .finished (.failed fault))
    (takesFault : ∀ fault, failure = some fault → state.failure = some fault ∨
      task = .finished (.failed fault)) :
    IsAccounted files work
      { state with
        collected := file :: state.collected
        reports := reports
        skipped := skipped
        failure := failure } := by
  refine
    { names := accounted.names
      once := List.nodup_cons.mpr ⟨fresh, accounted.once⟩
      collected := List.forall_mem_cons.mpr ⟨⟨task, found, ended⟩, accounted.collected⟩
      reports := ?_
      skipped := ?_
      unfailed := ?_
      failed := ?_
      worked := accounted.worked
      undisturbed := accounted.undisturbed }
  · have here : [file].filterMap state.reportOf? = (state.reportOf? file).toList := by
      rw [List.filterMap_cons]
      cases state.reportOf? file <;> rfl
    rw [takesReport, accounted.reports, ← here, ← List.filterMap_append, List.reverse_cons]
    rfl
  · intro other
    rw [takesSkipped, accounted.skipped, List.mem_cons]
    constructor
    · rintro ((isCancelled | ⟨member, isSkipped⟩) | ⟨rfl, isSkipped⟩)
      · exact Or.inl isCancelled
      · exact Or.inr ⟨Or.inr member, isSkipped⟩
      · exact Or.inr ⟨Or.inl rfl, isSkipped ▸ found⟩
    · rintro (isCancelled | ⟨rfl | member, isSkipped⟩)
      · exact Or.inl (Or.inl isCancelled)
      · exact Or.inr ⟨rfl, Option.some.inj (found.symm.trans isSkipped)⟩
      · exact Or.inl (Or.inr ⟨member, isSkipped⟩)
  · intro going
    obtain ⟨wentOn, noFault⟩ := keepsOn going
    refine List.forall_mem_cons.mpr ⟨?_, accounted.unfailed wentOn⟩
    intro fault broken
    exact noFault fault (Option.some.inj (found.symm.trans broken))
  · intro fault ended
    rcases takesFault fault ended with earlier | rfl
    · exact accounted.failed fault earlier
    · exact ⟨file, found⟩

/-- Every task that waits is cancelled. -/
theorem cancelWaiting (accounted : IsAccounted files work state) (distinct : files.Nodup)
    (requested : state.cancelRequested = true) :
    IsAccounted files work state.cancelWaiting := by
  have finishedStays : ∀ file outcome,
      state.cancelWaiting.task? file = some (.finished outcome) ↔
        state.task? file = some (.finished outcome) := by
    intro file outcome
    rw [task?_cancelWaiting]
    cases state.task? file with
    | none => simp
    | some task => cases task <;> simp [isCancellable]
  have cancelledIff : ∀ file, state.cancelWaiting.task? file = some .cancelled ↔
      ∃ task, state.task? file = some task ∧ isCancellable task = true := by
    intro file
    rw [task?_cancelWaiting]
    cases state.task? file with
    | none => simp
    | some task => cases task <;> simp [isCancellable]
  have stays : ∀ file ∈ state.collected,
      state.cancelWaiting.task? file = state.task? file := by
    intro file member
    obtain ⟨task, found, ended⟩ := accounted.collected file member
    rw [task?_cancelWaiting, found]
    cases task with
    | cancelled => rfl
    | finished outcome => rfl
    | pending => cases ended
    | running began => cases ended
  refine
    { names := ?_
      once := accounted.once
      collected := ?_
      reports := accounted.reports.trans (filterMap_reportOf? stays).symm
      skipped := ?_
      unfailed := ?_
      failed := ?_
      worked := ?_
      undisturbed := ?_ }
  · rw [cancelWaiting_tasks, List.map_map]
    exact accounted.names
  · intro file member
    rw [stays file member]
    exact accounted.collected file member
  · intro file
    rw [mem_skipped_cancelWaiting (accounted.nodup distinct), cancelledIff, finishedStays,
      accounted.skipped]
    constructor
    · rintro ((isCancelled | collectedSkipped) | waits)
      · exact Or.inl ⟨.cancelled, isCancelled, rfl⟩
      · exact Or.inr collectedSkipped
      · exact Or.inl waits
    · rintro (waits | collectedSkipped)
      · exact Or.inr waits
      · exact Or.inl (Or.inr collectedSkipped)
  · intro going file member
    rw [stays file member]
    exact accounted.unfailed going file member
  · intro fault ended
    obtain ⟨file, broken⟩ := accounted.failed fault ended
    exact ⟨file, (finishedStays file _).mpr broken⟩
  · intro file outcome result finished
    exact accounted.worked file outcome result ((finishedStays file _).mp finished)
  · intro calm
    rw [show state.cancelWaiting.cancelRequested = true from requested] at calm
    cases calm

/-- What the task came to is taken. -/
theorem take (accounted : IsAccounted files work state) (distinct : files.Nodup)
    (fresh : file ∉ state.collected) {outcome : Outcome}
    (found : state.task? file = some (.finished outcome)) :
    IsAccounted files work ((state.collecting file).take file outcome) := by
  cases outcome with
  | skipped =>
      refine accounted.collect fresh found rfl ?_ ?_ ?_ fun _ => Or.inl
      · simp [collecting, reportOf?, found]
      · intro other
        simp [collecting]
      · intro wentOn
        exact ⟨wentOn, nofun⟩
  | failed fault =>
      refine accounted.collect fresh found rfl ?_ ?_ nofun ?_
      · simp [collecting, reportOf?, found]
      · intro other
        simp [collecting]
      · intro other ended
        exact Or.inr (by rw [Option.some.inj ended])
  | reported report =>
      have taken : IsAccounted files work
          { state.collecting file with reports := state.reports ++ [report] } := by
        refine accounted.collect fresh found rfl ?_ ?_ ?_ fun _ => Or.inl
        · simp [reportOf?, found]
        · intro other
          simp [collecting]
        · intro wentOn
          exact ⟨wentOn, nofun⟩
      rw [RunState.take]
      split
      · rename_i requested
        exact taken.cancelWaiting distinct requested
      · exact taken

/-- Each step of a run keeps the files accounted for. -/
theorem step (accounted : IsAccounted files work state) (distinct : files.Nodup)
    {step : RunStep} (taken : state.step? workers work step = some next) :
    IsAccounted files work next := by
  rcases step?_cases taken with ⟨file, -, pending, -, rfl⟩ |
    ⟨file, readings, began, -, running, rfl⟩ | ⟨-, rfl⟩ |
    ⟨file, -, -, fresh, ⟨isCancelled, rfl⟩ | ⟨outcome, isFinished, rfl⟩⟩
  · refine accounted.setTask pending rfl nofun ?_ ?_
    · intro outcome result finished
      cases finished
    · intro calm
      rw [calm]
      exact ⟨nofun, nofun⟩
  · refine accounted.setTask running rfl nofun ?_ ?_
    · intro came result finished
      cases finished
      exact work_of_outcome
    · intro calm
      have beganCalm : began = false := by
        have others := (accounted.undisturbed calm file _ running).2.1
        simpa using others
      refine ⟨nofun, ?_⟩
      rw [outcome, beganCalm, calm]
      cases work file _ <;> exact nofun
  · exact accounted.requestCancel
  · refine accounted.collect fresh isCancelled rfl ?_ ?_ ?_ fun _ => Or.inl
    · simp [reportOf?, isCancelled]
    · simp
    · intro wentOn
      exact ⟨wentOn, nofun⟩
  · exact accounted.take distinct fresh isFinished

theorem steps (accounted : IsAccounted files work state) (distinct : files.Nodup)
    (workers : Nat) (sequence : List RunStep) :
    IsAccounted files work (state.steps workers work sequence) :=
  steps_keeps (fun _ _ _ _ kept taken => kept.step distinct taken) accounted

end IsAccounted

/-- Whatever the schedule, no file is lost. -/
theorem isAccounted_steps (distinct : files.Nodup) (workers : Nat) (work : FileWork)
    (sequence : List RunStep) :
    IsAccounted files work ((initial files).steps workers work sequence) :=
  (isAccounted_initial files work).steps distinct workers sequence

end RunState
end StyleAudit
