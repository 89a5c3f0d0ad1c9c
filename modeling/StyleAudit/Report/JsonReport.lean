import StyleAudit.Document.JsonPrinter
import StyleAudit.Report.Merge

/-!
# The report as a document

The records of a result in order, and a summary with the number of records of
every severity.
-/

namespace StyleAudit

def Value.ofNat (number : Nat) : Value :=
  .int number

def Violation.toValue (v : Violation) : Value :=
  let range := v.span.coordinates
  .table [("ruleId", .text v.ruleId), ("file", .text v.span.file),
    ("line", .ofNat range.startLine), ("column", .ofNat range.startColumn),
    ("endLine", .ofNat range.endLine), ("endColumn", .ofNat range.endColumn),
    ("message", .text v.message), ("severity", .text v.severity.name)]

namespace AuditResult

def summary (result : AuditResult) : Value :=
  .table (Severity.all.map (fun severity => (severity.name, .ofNat (result.count severity)))
    ++ [("files", .ofNat result.files), ("modules", .ofNat result.modules),
      ("cancelled", .bool result.cancelled)])

def toValue (result : AuditResult) : Value :=
  .table [("violations", .list (result.violations.map Violation.toValue)),
    ("summary", result.summary)]

def jsonText (result : AuditResult) : String :=
  result.toValue.indentedJson ++ "\n"

end AuditResult
end StyleAudit
