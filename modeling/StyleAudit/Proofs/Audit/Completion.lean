import StyleAudit.Proofs.Audit.Schedule

/-!
# Runs come to their end

With one worker at least no schedule leads into a run that cannot be completed:
the tasks under way can finish, and then every file can be settled, one after
the other (`exists_isComplete_steps`).
-/

namespace StyleAudit.RunState

variable {files : List String} {work : FileWork} {workers : Nat} {state next : RunState}
  {file : String}

theorem steps_append (workers : Nat) (work : FileWork) (state : RunState)
    (sequence later : List RunStep) :
    state.steps workers work (sequence ++ later) =
      (state.steps workers work sequence).steps workers work later :=
  List.foldl_append

theorem steps_cons_of_some {step : RunStep} (taken : state.step? workers work step = some next)
    (rest : List RunStep) :
    state.steps workers work (step :: rest) = next.steps workers work rest := by
  rw [steps, List.foldl_cons, taken]
  rfl

/-! ## Files that are settled -/

/-- The task of a file is collected, or the run has failed. -/
def IsSettled (state : RunState) (file : String) : Prop :=
  state.failure.isSome = true ∨ file ∈ state.collected

theorem collected_take (state : RunState) (file : String) (outcome : Outcome) :
    (state.take file outcome).collected = state.collected := by
  cases outcome with
  | skipped => rfl
  | failed fault => rfl
  | reported report =>
      rw [take]
      split <;> rfl

/-- What is settled stays settled, whatever step is taken. -/
theorem IsSettled.step (settled : state.IsSettled file) {step : RunStep}
    (taken : state.step? workers work step = some next) : next.IsSettled file := by
  rcases step?_cases taken with ⟨other, -, -, -, rfl⟩ | ⟨other, readings, began, -, -, rfl⟩ |
    ⟨-, rfl⟩ | ⟨other, -, unfailed, -, collects⟩
  · exact settled
  · exact settled
  · exact settled
  · have earlier : file ∈ state.collected := by
      rcases settled with failed | earlier
      · rw [unfailed] at failed
        cases failed
      · exact earlier
    rcases collects with ⟨-, rfl⟩ | ⟨outcome, -, rfl⟩
    · exact Or.inr (List.mem_cons_of_mem other earlier)
    · refine Or.inr ?_
      rw [collected_take]
      exact List.mem_cons_of_mem other earlier

theorem IsSettled.steps (settled : state.IsSettled file) (workers : Nat) (work : FileWork)
    (sequence : List RunStep) : (state.steps workers work sequence).IsSettled file := by
  have stepKeeps : ∀ step ∈ sequence, ∀ before after : RunState, before.IsSettled file →
      before.step? workers work step = some after → after.IsSettled file :=
    fun _ _ _ _ earlier taken => earlier.step taken
  exact steps_keeps stepKeeps settled

theorem isComplete_of_isSettled (names : state.tasks.map (·.1) = files)
    (settled : ∀ file ∈ files, state.IsSettled file) : state.isComplete = true := by
  rw [isComplete, Bool.or_eq_true]
  by_cases failed : state.failure.isSome = true
  · exact Or.inl failed
  · refine Or.inr (List.all_eq_true.mpr fun entry member => ?_)
    have listed : entry.1 ∈ files := by
      rw [← names]
      exact List.mem_map_of_mem member
    exact List.contains_iff_mem.mpr ((settled entry.1 listed).resolve_left failed)

/-! ## Idle workers -/

/-- No task is under way. -/
def IsIdle (state : RunState) : Prop :=
  ∀ file began, state.task? file ≠ some (.running began)

theorem runningCount_of_isIdle (idle : state.IsIdle) (nodup : (state.tasks.map (·.1)).Nodup) :
    state.runningCount = 0 := by
  rw [runningCount, List.countP_eq_zero]
  rintro ⟨file, task⟩ member
  have found := task?_of_mem nodup member
  cases task with
  | running began => exact absurd found (idle file began)
  | pending => nofun
  | finished outcome => nofun
  | cancelled => nofun

theorem isIdle_cancelWaiting (idle : state.IsIdle) : state.cancelWaiting.IsIdle := by
  intro file began running
  rw [task?_cancelWaiting] at running
  obtain ⟨task, found, cancels⟩ := Option.map_eq_some_iff.mp running
  split at cancels
  · cases cancels
  · rw [cancels] at found
    exact idle file began found

theorem isIdle_take (idle : state.IsIdle) (file : String) (outcome : Outcome) :
    (state.take file outcome).IsIdle := by
  cases outcome with
  | skipped => exact idle
  | failed fault => exact idle
  | reported report =>
      have stillIdle : IsIdle { state with reports := state.reports ++ [report] } := idle
      rw [take]
      split
      · exact isIdle_cancelWaiting stillIdle
      · exact stillIdle

theorem task_of_running_setTask {name : String} {outcome : Outcome} {began : Bool}
    (running : (state.setTask name (.finished outcome)).task? file = some (.running began)) :
    file ≠ name ∧ state.task? file = some (.running began) := by
  rw [task?_setTask] at running
  obtain ⟨old, found, same⟩ := Option.map_eq_some_iff.mp running
  split at same
  · cases same
  · rename_i apart
    rw [same] at found
    exact ⟨apart, found⟩

/-- Tasks under way can all finish. -/
theorem isIdle_steps_finish (workers : Nat) (work : FileWork) (names : List String)
    (running : ∀ file began, state.task? file = some (.running began) → file ∈ names) :
    (state.steps workers work (names.map fun file => .finish file .never)).IsIdle := by
  induction names generalizing state with
  | nil =>
      intro file began found
      cases running file began found
  | cons name rest inductionHypothesis =>
      refine inductionHypothesis fun file began found => ?_
      have stillRuns : file ≠ name ∧ state.task? file = some (.running began) := by
        cases taken : state.step? workers work (.finish name .never) with
        | none =>
            simp only [taken, Option.getD_none] at found
            refine ⟨?_, found⟩
            rintro rfl
            rw [step?, found] at taken
            cases taken
        | some next =>
            simp only [taken, Option.getD_some] at found
            rcases step?_cases taken with ⟨_, impossible, _⟩ | ⟨_, _, _, same, -, rfl⟩ |
              ⟨impossible, -⟩ | ⟨_, impossible, _⟩
            · cases impossible
            · cases same
              exact task_of_running_setTask found
            · cases impossible
            · cases impossible
      exact List.mem_of_ne_of_mem stillRuns.1 (running file began stillRuns.2)

/-! ## Settling one file after the other -/

/-- A task that is over can be collected. -/
theorem exists_settled_of_isOver (idle : state.IsIdle) {task : TaskState}
    (found : state.task? file = some task) (ended : task.isOver = true) (workers : Nat)
    (work : FileWork) :
    ∃ later, (state.steps workers work later).IsIdle ∧
      (state.steps workers work later).IsSettled file := by
  by_cases settled : state.IsSettled file
  · exact ⟨[], idle, settled⟩
  have allowed : ¬ (state.failure.isSome || state.collected.contains file) = true := by
    rw [Bool.or_eq_true, List.contains_iff_mem]
    exact settled
  have stillIdle : (state.collecting file).IsIdle := idle
  refine ⟨[.collect file], ?_⟩
  cases task with
  | pending => cases ended
  | running began => cases ended
  | cancelled =>
      have taken : state.step? workers work (.collect file) = some (state.collecting file) := by
        rw [step?, if_neg allowed, found]
        rfl
      rw [steps_cons_of_some taken]
      exact ⟨stillIdle, Or.inr List.mem_cons_self⟩
  | finished outcome =>
      have taken : state.step? workers work (.collect file) =
          some ((state.collecting file).take file outcome) := by
        rw [step?, if_neg allowed, found]
        rfl
      rw [steps_cons_of_some taken]
      refine ⟨isIdle_take stillIdle file outcome, Or.inr ?_⟩
      show file ∈ ((state.collecting file).take file outcome).collected
      rw [collected_take]
      exact List.mem_cons_self

/-- A free worker can start a task that waits and finish it. -/
theorem exists_isOver_of_pending (idle : state.IsIdle) (found : state.task? file = some .pending)
    (free : state.runningCount < workers) (work : FileWork) :
    ∃ sequence outcome, (state.steps workers work sequence).IsIdle ∧
      (state.steps workers work sequence).task? file = some (.finished outcome) := by
  let started := state.setTask file (.running state.cancelRequested)
  have starts : state.step? workers work (.start file) = some started := by
    rw [step?, found]
    exact if_pos free
  have runs : started.task? file = some (.running state.cancelRequested) := by
    simp [started, found]
  let outcome := started.outcome work file state.cancelRequested .never
  have finishes : started.step? workers work (.finish file .never) =
      some (started.setTask file (.finished outcome)) := by
    rw [step?, runs]
  refine ⟨[.start file, .finish file .never], outcome, ?_⟩
  rw [steps_cons_of_some starts, steps_cons_of_some finishes]
  constructor
  · intro other began running
    obtain ⟨apart, stillRuns⟩ := task_of_running_setTask running
    have same : started.task? other = state.task? other := by
      simp [started, apart]
    exact idle other began (same.symm.trans stillRuns)
  · show (started.setTask file (.finished outcome)).task? file = _
    simp [runs]

/-- With a worker at least, a run at rest can be continued until a given file is
settled. -/
theorem exists_settled (accounted : IsAccounted files work state) (distinct : files.Nodup)
    (staffed : 0 < workers) (idle : state.IsIdle) (listed : file ∈ files) :
    ∃ later, (state.steps workers work later).IsIdle ∧
      (state.steps workers work later).IsSettled file := by
  rw [← accounted.names] at listed
  obtain ⟨task, found⟩ := exists_task?_iff.mpr listed
  cases task with
  | cancelled => exact exists_settled_of_isOver idle found rfl workers work
  | finished outcome => exact exists_settled_of_isOver idle found rfl workers work
  | running began => exact absurd found (idle file began)
  | pending =>
      have free : state.runningCount < workers := by
        rw [runningCount_of_isIdle idle (accounted.nodup distinct)]
        exact staffed
      obtain ⟨sequence, outcome, stillIdle, isOver⟩ :=
        exists_isOver_of_pending idle found free work
      obtain ⟨later, ends⟩ := exists_settled_of_isOver stillIdle isOver rfl workers work
      refine ⟨sequence ++ later, ?_⟩
      rw [steps_append]
      exact ends

/-- One file after the other can be settled. -/
theorem exists_all_settled (accounted : IsAccounted files work state) (distinct : files.Nodup)
    (staffed : 0 < workers) (idle : state.IsIdle) (names : List String)
    (among : ∀ name ∈ names, name ∈ files) :
    ∃ later, ∀ name ∈ names, (state.steps workers work later).IsSettled name := by
  induction names generalizing state with
  | nil => exact ⟨[], nofun⟩
  | cons name rest inductionHypothesis =>
      obtain ⟨listed, amongRest⟩ := List.forall_mem_cons.mp among
      obtain ⟨sequence, stillIdle, settled⟩ := exists_settled accounted distinct staffed idle listed
      obtain ⟨later, others⟩ := inductionHypothesis
        (accounted.steps distinct workers sequence) stillIdle amongRest
      refine ⟨sequence ++ later, ?_⟩
      rw [steps_append]
      exact List.forall_mem_cons.mpr ⟨settled.steps workers work later, others⟩

/-- With a worker at least, every run can be continued to its end. -/
theorem exists_isComplete_steps (distinct : files.Nodup) (staffed : 0 < workers) (work : FileWork)
    (sequence : List RunStep) :
    ∃ later, ((initial files).steps workers work (sequence ++ later)).isComplete = true := by
  have accounted := isAccounted_steps distinct workers work sequence
  let reached := (initial files).steps workers work sequence
  let finishing := files.map fun file => RunStep.finish file .never
  have idle : (reached.steps workers work finishing).IsIdle := by
    refine isIdle_steps_finish workers work files fun file began running => ?_
    rw [← accounted.names]
    exact exists_task?_iff.mp ⟨_, running⟩
  have stillAccounted := accounted.steps distinct workers finishing
  obtain ⟨later, settled⟩ :=
    exists_all_settled stillAccounted distinct staffed idle files fun _ listed => listed
  refine ⟨finishing ++ later, ?_⟩
  rw [steps_append, steps_append]
  exact isComplete_of_isSettled (stillAccounted.steps distinct workers later).names settled

end StyleAudit.RunState
