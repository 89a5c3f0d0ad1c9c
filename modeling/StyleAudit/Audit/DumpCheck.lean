import StyleAudit.Audit.Run
import StyleAudit.Files.Dump
import StyleAudit.Files.Search

/-!
# Checking dumped files

The work of a task is to load a dump and to analyze it. A dump that cannot be
loaded through a fault of its own is reported by one record, at the beginning
of the file.
-/

namespace StyleAudit

/-- The number of workers of a run: that asked for, or else the configured
one. -/
def Config.workerCount (config : Config) (asked : Int) : Except SettingFault Int :=
  if asked = 0 then config.maxWorkers?.map Int.ofNat else .ok asked

/-- Why a run does not begin. -/
inductive LaunchFault
  | search (fault : SearchFault)
  /-- The number of workers has too many digits to be announced. -/
  | endlessCount
  /-- What is wrong with the configuration has no wording. -/
  | endlessError
  | noWorkers
  deriving Repr

def LaunchFault.message : LaunchFault → String
  | search fault => fault.message
  | endlessCount | endlessError => OverlongInteger.writingMessage
  | noWorkers => "max_workers must be greater than 0"

namespace Engine

def unloadedReport (path : String) (fault : DumpFault) : FileReport :=
  ⟨path, [.engineError (fault.message path) ⟨path, .origin⟩], 0, false⟩

/-- The file that a dump is about: the one it names, or else its own path. -/
def subjectOf (raw : Value) (path : String) : String :=
  (namedFile? raw).getD path

/-- Load and analyze the dump at a path. -/
def dumpWork (engine : Engine) (tree : FileTree) (clock : Clock) : FileWork := fun path cancel =>
  match tree.loadDump path with
  | .error (.confined fault) => .ok (unloadedReport path fault)
  | .error (.number fault) => .error (.number fault)
  | .error .zeroInPath => .error .zeroInPath
  | .ok raw =>
    (engine.analyze raw (some (subjectOf raw path)) cancel clock).mapError .arity

/-- The run over the dumps that some paths stand for, which takes a worker at
least. -/
def checkDumps (engine : Engine) (tree : FileTree) (clock : Clock) (moment : RunState.CancelMoment)
    (workers : Int) (paths : List String) : Except LaunchFault RunState := do
  let files ← (tree.discover dumpPatterns paths).mapError .search
  if exceedsDigitLimit workers.natAbs then
    throw .endlessCount
  if workers < 1 then
    throw .noWorkers
  return RunState.sequential (engine.dumpWork tree clock) moment files

end Engine
end StyleAudit
