import StyleAudit.Audit.Evaluation
import StyleAudit.Report.Merge

/-!
# Analyzing a file

`Engine.ofConfig` joins the catalog with the test for nested modules and the
time budget, or says why it cannot. `Engine.analyze` reads the modules of one
dumped file one by one, evaluates each on its own and reports what was found.

A run may be cancelled between two modules, and time is read from a clock, so
both are given as sequences of readings.
-/

namespace StyleAudit

/-- How modules internal to their context are told from others. -/
inductive ContextTest
  /-- By the depth that the configuration allows. -/
  | standard
  | given (isNested : String → Bool)
  /-- Something was given that is no test. -/
  | unusable

/-- Why no engine can be built. -/
inductive EngineError
  | config (error : ConfigError)
  | setting (fault : SettingFault)
  | contextTestUnusable
  | supportMissing
  | supportEmpty
  deriving Repr

def EngineError.message : EngineError → String
  | config error => error.message
  | setting fault => fault.message
  | contextTestUnusable => "Context nesting predicate must be callable"
  | supportMissing =>
    "test-case-usage is enabled but no test support capability table was supplied"
  | supportEmpty => "test-case-usage is enabled but the capability table is empty"

/-- The enabled rules, the test for nested modules and the time budget. -/
structure Engine where
  catalog : Catalog
  isNested : String → Bool
  timeout : Option Binary64

/-- What was found in one file. -/
structure FileReport where
  file : String
  violations : List Violation
  modules : Nat
  cancelled : Bool
  deriving DecidableEq, Repr

namespace Engine

/-- The test for nested modules that an engine uses. -/
def contextTest (config : Config) : ContextTest → Except EngineError (String → Bool)
  | .standard =>
    match config.contextDepth? with
    | .ok depth => .ok (exceedsDepth depth)
    | .error fault => .error (.setting fault)
  | .given isNested => .ok isNested
  | .unusable => .error .contextTestUnusable

/-- An enabled test-case-usage rule needs test support bases. -/
def supportError? (config : Config) (catalog : Catalog) : Option EngineError :=
  if catalog.rules.contains .testCaseUsage then
    if !config.hasTestSupport then some .supportMissing
    else if config.supportTable.isEmpty then some .supportEmpty
    else none
  else none

def ofConfig (config : Config) (test : ContextTest) : Except EngineError Engine := do
  let isNested ← contextTest config test
  let catalog := Catalog.ofConfig config
  if let some error := supportError? config catalog then
    throw error
  match config.moduleTimeout? with
  | .ok timeout => return ⟨catalog, isNested, timeout⟩
  | .error fault => throw (.setting fault)

/-- The notices of building an engine: none before the test for nested modules
is known to be usable. -/
def notices (config : Config) (test : ContextTest) : List Notice :=
  match contextTest config test with
  | .ok _ => Catalog.notices config
  | .error _ => []

/-- The engine of a configuration whose test support bases are replaced, and
the notices of building it. -/
def withCapabilities (config : Config) (capabilities : List (String × Capability))
    (test : ContextTest) : List Notice × Except EngineError Engine :=
  let entries := config.overridden [("test_support", testSupportValue capabilities)]
  match Config.ofSection entries with
  | .error error => (Config.notices entries, .error (.config error))
  | .ok config => (Config.notices entries ++ notices config test, ofConfig config test)

end Engine

/-! ## The modules of a file -/

/-- Why a dump has no modules to analyze. -/
inductive SplitFault
  | rootNotTable
  | unnamedFile
  | unknownRoot (found : Value)
  | childrenNotList
  deriving Repr

def SplitFault.message : SplitFault → String
  | rootNotTable => Malformed.rootNotTable.message
  | unnamedFile => Malformed.unnamedFile.message
  | unknownRoot found => s!"Root must be a source_file or module, got {found.display}"
  | childrenNotList => "source_file children must be a list"

/-- The file that reports name when nothing names one. -/
def unknownFile : String := "<unknown>"

/-- The dumped modules of a file and its name. The root is a source file or a
single module. -/
def splitModules (raw : Value) (file : Option String) :
    Except SplitFault (List Value × String) :=
  match raw with
  | .table entries =>
    match file.or (namedFile? raw) with
    | none => .error .unnamedFile
    | some file =>
      let kind := (entries.lookup "kind").getD .null
      if kind.text? = some Kind.module.name then .ok ([raw], file)
      else if kind.text? = some Kind.sourceFile.name then
        let children := (entries.lookup "children").getD .null
        if !children.isGiven then .ok ([], file)
        else match children with
          | .list modules => .ok (modules, file)
          | _ => .error .childrenNotList
      else .error (.unknownRoot kind)
  | _ => .error .rootNotTable

/-- The readings of a cancellation, one before each module. -/
abbrev Cancellation := Nat → Bool

def Cancellation.never : Cancellation := fun _ => false

/-- The successive readings of a clock, in seconds. -/
abbrev Clock := Nat → Binary64

/-- What came of some modules of a file. -/
structure Tally where
  violations : List Violation
  modules : Nat
  cancelled : Bool
  deriving Repr

/-- One record more, about a module that does not count as analyzed. -/
def Tally.addRecord (tally : Tally) (record : Violation) : Tally :=
  { tally with violations := record :: tally.violations }

def Tally.addModule (tally : Tally) (found : List Violation) : Tally :=
  { tally with violations := found ++ tally.violations, modules := tally.modules + 1 }

namespace Engine

def malformedRecord (raw : Value) (file : String) (failure : Malformed) : Violation :=
  .engineError s!"malformed input: {failure.message}"
    (failure.span?.getD (Node.locate raw file))

def strayRecord (n : Node) : Violation :=
  .engineError s!"malformed input: expected a module, got {n.kind.name}" n.span

def overBudgetRecord (n : Node) (budget : Binary64) : Violation :=
  .engineError s!"{n.name}: analysis exceeded {Layout.general.text budget}s budget" n.span

/-- The budget that the time between two readings exceeds. -/
def exceeded? (engine : Engine) (started ended : Binary64) : Option Binary64 :=
  engine.timeout.filter fun budget => budget.less (ended.sub started)

/-- Analyze modules one by one: `index` counts the modules before them and
`tick` the clock readings used. The clock is read before each module, and once
more after its evaluation. -/
def analyzeModules (engine : Engine) (file : String) (cancel : Cancellation) (clock : Clock)
    (index tick : Nat) : List Value → Except UnreadableArity Tally
  | [] => .ok ⟨[], 0, false⟩
  | raw :: rest =>
    if cancel index then .ok ⟨[], 0, true⟩
    else match Node.normalize raw (some file) with
    | .error failure => do
      let tally ← analyzeModules engine file cancel clock (index + 1) (tick + 1) rest
      return tally.addRecord (malformedRecord raw file failure)
    | .ok n =>
      if n.kind ≠ .module then do
        let tally ← analyzeModules engine file cancel clock (index + 1) (tick + 1) rest
        return tally.addRecord (strayRecord n)
      else do
        let found ← engine.catalog.evaluate engine.isNested n
        let tally ← analyzeModules engine file cancel clock (index + 1) (tick + 2) rest
        match engine.exceeded? (clock tick) (clock (tick + 1)) with
        | some budget => return tally.addRecord (overBudgetRecord n budget)
        | none => return tally.addModule found

/-- The report of one dumped file. -/
def analyze (engine : Engine) (raw : Value) (file : Option String) (cancel : Cancellation)
    (clock : Clock) : Except UnreadableArity FileReport :=
  match splitModules raw file with
  | .error fault =>
    let place := (file.filter (· ≠ "")).getD unknownFile
    .ok ⟨place, [.engineError fault.message ⟨place, .origin⟩], 0, false⟩
  | .ok (modules, file) => do
    let tally ← engine.analyzeModules file cancel clock 0 0 modules
    return ⟨file, Report.ofViolations tally.violations, tally.modules, tally.cancelled⟩

/-- The merged report of several dumped files, analyzed one after the other. -/
def checkAll (engine : Engine) (clock : Clock) (trees : List (Value × Option String)) :
    Except UnreadableArity (List Violation) := do
  let reports ← trees.mapM fun (raw, file) => engine.analyze raw file .never clock
  return Report.merge (reports.map (·.violations))

end Engine
end StyleAudit
