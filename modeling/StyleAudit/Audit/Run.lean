import StyleAudit.Audit.Engine
import StyleAudit.Console.Session

/-!
# Runs over several files

A run has one task for every file. Workers start tasks and finish them, and a
collector takes what the tasks come to, in any order. The run may be cancelled
at any moment: tasks that have not begun then skip their files, those under
way stop after their current module, and as soon as the collector takes a
report it cancels the tasks that still wait.

`RunState.step?` says what each step does and when it can be taken, and
`RunState.result` what comes of a run once everything is collected.
`RunState.steps` is the schedule of a single worker.
-/

namespace StyleAudit

/-- What makes a task fail, and the run with it. -/
inductive TaskFault
  | arity (fault : UnreadableArity)
  | number (fault : OverlongInteger)
  | zeroInPath
  deriving DecidableEq, Repr

def TaskFault.message : TaskFault → String
  | arity fault => fault.message
  | number fault => fault.message
  | zeroInPath => "embedded null byte"

/-- What a task comes to. -/
inductive Outcome
  | skipped
  | reported (report : FileReport)
  | failed (fault : TaskFault)
  deriving Repr

/-- How far a task is. A running task knows whether the run was cancelled when
it began. -/
inductive TaskState
  | pending
  | running (beganCancelled : Bool)
  | finished (outcome : Outcome)
  | cancelled
  deriving Repr

/-- What a task does with its file, given the readings of the cancellation
before each module. -/
abbrev FileWork := String → Cancellation → Except TaskFault FileReport

/-- A run under way. -/
structure RunState where
  /-- The files and their tasks, in the order of the files. -/
  tasks : List (String × TaskState)
  cancelRequested : Bool
  /-- The files whose tasks were collected, the last first. -/
  collected : List String
  /-- The reports taken so far. -/
  reports : List FileReport
  /-- The files recorded as skipped so far. -/
  skipped : List String
  /-- The fault of a task that failed. -/
  failure : Option TaskFault
  deriving Repr

/-- A step of a run. -/
inductive RunStep
  | start (file : String)
  /-- The first reading is taken before the file is loaded, the others before
  its modules. -/
  | finish (file : String) (readings : Cancellation)
  | requestCancel
  | collect (file : String)

namespace RunState

def initial (files : List String) : RunState :=
  { tasks := files.map fun file => (file, .pending)
    cancelRequested := false
    collected := []
    reports := []
    skipped := []
    failure := none }

def task? (state : RunState) (file : String) : Option TaskState :=
  state.tasks.lookup file

def setTask (state : RunState) (file : String) (task : TaskState) : RunState :=
  { state with
    tasks := state.tasks.map fun entry => if entry.1 = file then (file, task) else entry }

def runningCount (state : RunState) : Nat :=
  state.tasks.countP fun entry =>
    match entry.2 with
    | .running _ => true
    | _ => false

/-- What a running task comes to: it skips its file if the run is cancelled
before the file is loaded. -/
def outcome (state : RunState) (work : FileWork) (file : String) (beganCancelled : Bool)
    (readings : Cancellation) : Outcome :=
  if beganCancelled || state.cancelRequested && readings 0 then .skipped
  else match work file fun index => state.cancelRequested && readings (index + 1) with
    | .ok report => .reported report
    | .error fault => .failed fault

/-- A waiting task can be cancelled, and so can one that is cancelled
already. -/
def isCancellable : TaskState → Bool
  | .pending | .cancelled => true
  | _ => false

/-- Cancel every task that can be cancelled and record its file as skipped. -/
def cancelWaiting (state : RunState) : RunState :=
  let waiting := (state.tasks.filter fun entry => isCancellable entry.2).map (·.1)
  { state with
    tasks := state.tasks.map fun entry =>
      if isCancellable entry.2 then (entry.1, .cancelled) else entry
    skipped := state.skipped ++ waiting }

def take (state : RunState) (file : String) : Outcome → RunState
  | .skipped => { state with skipped := state.skipped ++ [file] }
  | .failed fault => { state with failure := some fault }
  | .reported report =>
    let reported := { state with reports := state.reports ++ [report] }
    if state.cancelRequested then reported.cancelWaiting else reported

/-- The run after a step, if the step can be taken. Each task is collected
once, and a run whose task failed goes no further. -/
def step? (workers : Nat) (work : FileWork) (state : RunState) : RunStep → Option RunState
  | .start file =>
    match state.task? file with
    | some .pending =>
      if state.runningCount < workers then
        some (state.setTask file (.running state.cancelRequested))
      else none
    | _ => none
  | .finish file readings =>
    match state.task? file with
    | some (.running beganCancelled) =>
      some (state.setTask file (.finished (state.outcome work file beganCancelled readings)))
    | _ => none
  | .requestCancel => some { state with cancelRequested := true }
  | .collect file =>
    if state.failure.isSome || state.collected.contains file then none
    else
      let next := { state with collected := file :: state.collected }
      match state.task? file with
      | some .cancelled => some next
      | some (.finished outcome) => some (next.take file outcome)
      | _ => none

/-- The run after a sequence of steps; a step that cannot be taken is left
out. -/
def steps (workers : Nat) (work : FileWork) (state : RunState) (sequence : List RunStep) :
    RunState :=
  sequence.foldl (fun state step => (state.step? workers work step).getD state) state

/-- Everything is collected, or a task failed. -/
def isComplete (state : RunState) : Bool :=
  state.failure.isSome || state.tasks.all fun entry => state.collected.contains entry.1

/-- The run was cancelled before everything was analyzed. -/
def wasCutShort (state : RunState) : Bool :=
  state.cancelRequested && (!state.skipped.isEmpty || state.reports.any (·.cancelled))

def moduleCount (reports : List FileReport) : Nat :=
  reports.foldr (fun report total => report.modules + total) 0

def result (state : RunState) : Except TaskFault AuditResult :=
  match state.failure with
  | some fault => .error fault
  | none => .ok
    { violations := Report.merge (state.reports.map (·.violations))
      files := state.reports.length
      modules := moduleCount state.reports
      cancelled := state.wasCutShort
      skipped := Text.sortedDistinct state.skipped }

def beginning (files : List String) (workers : Int) : Announcement :=
  .step s!"Analyzing {files.length} AST dump(s) with {workers} worker(s)"

def reportNote (report : FileReport) : Announcement :=
  .debug s!"{report.file}: {report.violations.length} record(s) from {report.modules} module(s)"

/-- What a run announces from its beginning to its end. -/
def announcements (state : RunState) (workers : Int) : List Announcement :=
  let cut := s!"Run cancelled; {state.skipped.length} file(s) not analyzed"
  beginning (state.tasks.map (·.1)) workers :: state.reports.map reportNote
    ++ if state.wasCutShort then [.warning cut] else []

/-! ## One worker -/

/-- When a run is cancelled. -/
inductive CancelMoment
  | never
  | beforehand
  /-- When the file begins to be loaded. -/
  | whileLoading (file : String)
  deriving DecidableEq, Repr

/-- The steps of one task from its start to its collection. -/
def taskSteps (moment : CancelMoment) (file : String) : List RunStep :=
  if moment = .whileLoading file then
    [.start file, .requestCancel, .finish file (· ≠ 0), .collect file]
  else [.start file, .finish file (fun _ => true), .collect file]

/-- The steps of a single worker that takes the files one after the other. -/
def oneByOne (moment : CancelMoment) (files : List String) : List RunStep :=
  (if moment = .beforehand then [.requestCancel] else []) ++ files.flatMap (taskSteps moment)

/-- The run of a single worker over all files. -/
def sequential (work : FileWork) (moment : CancelMoment) (files : List String) : RunState :=
  (initial files).steps 1 work (oneByOne moment files)

end RunState
end StyleAudit
