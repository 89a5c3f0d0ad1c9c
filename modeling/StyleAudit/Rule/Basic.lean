import StyleAudit.Report.Violation
import StyleAudit.Module.CallGraph

/-!
# The rules of the style guide

`Rule` lists the rules in catalog order, with the id, title, severity and node
kinds of each. A rule looks at one node in its module and answers with
findings; `Rule.report` turns a finding into a record.
-/

namespace StyleAudit

/-- The rules, in catalog order. -/
inductive Rule
  | withElseCoverage
  | withElseRedundancy
  | withElseOrder
  | errorMapping
  | moduledocScope
  | importScope
  | testCaseUsage
  | sequentialNaming
  | predicateNaming
  | functionOrder
  | flowDirectiveChoice
  | patternMatchingUsage
  | nestedStructureMacroUsage
  | optionFormat
  | errorHandlingLocality
  | okErrorReturnConsistency
  deriving DecidableEq, Repr

/-- What a rule has to say about a source range. -/
structure Finding where
  span : Span
  message : String
  deriving DecidableEq, Repr

/-- A node of a module and the way to it from the module. -/
structure Site where
  path : NodePath
  node : Node
  deriving Repr

/-- A module as the rules see it. -/
structure ModuleContext where
  scope : ModuleScope
  graph : CallGraph
  deriving Repr

/-- What a test support base provides, and the calls that show its use. -/
structure Capability where
  provides : String
  hallmarks : List String
  deriving DecidableEq, Repr

/-- The settings that rules are built from. -/
structure RuleSettings where
  /-- Modules whose calls count as resolved. -/
  trusted : List String
  /-- Test support bases by name. -/
  testSupport : List (String × Capability)
  /-- The beginning of names reserved for guards. -/
  guardMark : String
  /-- The end of the names of predicates. -/
  predicateMark : String
  /-- The names of option parameters. -/
  optionNames : List String
  deriving Repr

namespace Rule

def all : List Rule :=
  [withElseCoverage, withElseRedundancy, withElseOrder, errorMapping, moduledocScope,
    importScope, testCaseUsage, sequentialNaming, predicateNaming, functionOrder,
    flowDirectiveChoice, patternMatchingUsage, nestedStructureMacroUsage, optionFormat,
    errorHandlingLocality, okErrorReturnConsistency]

def id : Rule → String
  | withElseCoverage => "with-else-coverage"
  | withElseRedundancy => "with-else-redundancy"
  | withElseOrder => "with-else-order"
  | errorMapping => "error-mapping"
  | moduledocScope => "moduledoc-scope"
  | importScope => "import-scope"
  | testCaseUsage => "test-case-usage"
  | sequentialNaming => "sequential-naming"
  | predicateNaming => "predicate-naming"
  | functionOrder => "function-order"
  | flowDirectiveChoice => "flow-directive-choice"
  | patternMatchingUsage => "pattern-matching-usage"
  | nestedStructureMacroUsage => "nested-structure-macro-usage"
  | optionFormat => "option-format"
  | errorHandlingLocality => "error-handling-locality"
  | okErrorReturnConsistency => "ok-error-return-consistency"

def title : Rule → String
  | withElseCoverage => "with without else over external calls"
  | withElseRedundancy => "redundant with/else"
  | withElseOrder => "with/else branches out of clause order"
  | errorMapping => "possibly unmapped cross-context error"
  | moduledocScope => "moduledoc on an internal module"
  | importScope => "broad import"
  | testCaseUsage => "test support base broader than needed"
  | sequentialNaming => "sequential identifier without underscore"
  | predicateNaming => "predicate function naming"
  | functionOrder => "helper not placed below its first caller"
  | flowDirectiveChoice => "flattenable nested conditional"
  | patternMatchingUsage => "field-access chain instead of pattern match"
  | nestedStructureMacroUsage => "manual nested update"
  | optionFormat => "options or status pair in the wrong container"
  | errorHandlingLocality => "generic error conversion"
  | okErrorReturnConsistency => "inconsistent ok/error tagging"

def severity : Rule → Severity
  | errorMapping | testCaseUsage | functionOrder | flowDirectiveChoice | patternMatchingUsage
  | nestedStructureMacroUsage | errorHandlingLocality => .advisory
  | _ => .violation

def kinds : Rule → List Kind
  | withElseCoverage | withElseRedundancy | withElseOrder => [.withExpr]
  | errorMapping => [.caseExpr, .withExpr]
  | moduledocScope | functionOrder => [.module]
  | importScope => [.importDirective]
  | testCaseUsage => [.useDirective]
  | sequentialNaming => [.function, .matchExpr]
  | predicateNaming | optionFormat | errorHandlingLocality | okErrorReturnConsistency =>
    [.function]
  | flowDirectiveChoice => [.caseExpr, .ifExpr]
  | patternMatchingUsage | nestedStructureMacroUsage => [.block]

def ofId? (word : String) : Option Rule :=
  all.find? (·.id == word)

def report (rule : Rule) (finding : Finding) : Violation :=
  ⟨rule.id, finding.span, finding.message, rule.severity⟩

end Rule
end StyleAudit
