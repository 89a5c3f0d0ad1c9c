import StyleAudit.Rule.ErrorLocality
import StyleAudit.Rule.ErrorMapping
import StyleAudit.Rule.Extraction
import StyleAudit.Rule.Flow
import StyleAudit.Rule.FunctionOrder
import StyleAudit.Rule.ModuleForm
import StyleAudit.Rule.Naming
import StyleAudit.Rule.NestedUpdate
import StyleAudit.Rule.OptionFormat
import StyleAudit.Rule.Tagging
import StyleAudit.Rule.WithElse

/-!
# Checking a site

`Rule.findings` asks one rule about one site, and `Rule.check` makes records
of its findings.
-/

namespace StyleAudit.Rule

def findings (settings : RuleSettings) (context : ModuleContext) (site : Site) :
    Rule → List Finding
  | withElseCoverage => WithElse.coverage settings.trusted context.scope site.node
  | withElseRedundancy => WithElse.redundancy settings.trusted context.scope site.node
  | withElseOrder => WithElse.order settings.trusted context.scope site.node
  | errorMapping => ErrorMapping.check settings.trusted context.scope site.node
  | moduledocScope => ModuleForm.moduledocScope context.scope site.node
  | importScope => ModuleForm.importScope context.scope site
  | testCaseUsage => ModuleForm.testCaseUsage settings.testSupport context.scope site.node
  | sequentialNaming => Naming.sequential site.node
  | predicateNaming => Naming.predicate settings context.scope site
  | functionOrder => FunctionOrder.check context.scope context.graph
  | flowDirectiveChoice => Flow.directiveChoice site.node
  | patternMatchingUsage => Extraction.check site.node
  | nestedStructureMacroUsage => NestedUpdate.check site.node
  | optionFormat => OptionFormat.check settings.optionNames site.node
  | errorHandlingLocality => ErrorLocality.check context site
  | okErrorReturnConsistency => Tagging.check context.scope site

def check (settings : RuleSettings) (context : ModuleContext) (site : Site) (rule : Rule) :
    List Violation :=
  (rule.findings settings context site).map rule.report

end StyleAudit.Rule
