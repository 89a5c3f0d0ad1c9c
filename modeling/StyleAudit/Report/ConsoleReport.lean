import StyleAudit.Console.Item
import StyleAudit.Guidance.Registry
import StyleAudit.Report.Merge
import StyleAudit.Text.Markup

/-!
# The report on a console

A table of records for every file, a table of advice for the rules that
reported something, and a line that sums up.
-/

namespace StyleAudit

def Severity.style : Severity → String
  | .error => "bold red"
  | .violation => "red"
  | .advisory => "yellow"

def Severity.styled (severity : Severity) (text : String) : String :=
  s!"[{severity.style}]{text}[/]"

namespace ConsoleReport

def recordRow (v : Violation) : List String :=
  let start := v.span.coordinates
  [s!"{start.startLine}:{start.startColumn}", v.severity.styled v.severity.name, v.ruleId,
    Text.escapeMarkup v.message]

def fileTable (file : String) (violations : List Violation) : Table :=
  { title := Text.escapeMarkup file
    columns := ["Location", "Severity", "Rule", "Message"]
    rows := violations.map recordRow }

/-- The ids of the rules that reported something other than an error. -/
def advisedIds (result : AuditResult) : List String :=
  Text.sortedDistinct ((result.violations.filter (·.severity != .error)).map (·.ruleId))

def adviceRow (registry : Registry) (id : String) : List String :=
  let name := Text.escapeMarkup (registry.displayName id)
  [s!"{id}\n[dim]{name}[/]", Text.escapeMarkup (registry.instructions id)]

def adviceTable? (registry : Registry) (result : AuditResult) : Option Table :=
  match advisedIds result with
  | [] => none
  | ids => some
    { title := "How to fix"
      columns := ["Rule", "Guidance"]
      rows := ids.map (adviceRow registry) }

def summaryLine (result : AuditResult) : String :=
  let counted := [.error, .violation, .advisory].map fun severity : Severity =>
    severity.styled s!"{result.count severity} {severity.name}"
  let total := String.intercalate ", " counted ++ s!" in {result.files} file(s)"
  if result.cancelled then
    total ++ s!" [yellow](cancelled, {result.skipped.length} skipped)[/]"
  else total

def cleanLine (result : AuditResult) : String :=
  s!"[green]No style issues[/] in {result.files} file(s), {result.modules} module(s)."

def items (registry : Registry) (result : AuditResult) : List ConsoleItem :=
  if result.hasViolations then
    result.byFile.map (fun (file, violations) => .table (fileTable file violations))
      ++ (adviceTable? registry result).toList.map .table ++ [.line (summaryLine result)]
  else [.line (cleanLine result)]

end ConsoleReport
end StyleAudit
