import StyleAudit.Report.Violation

/-!
# Reports

`Report.ofViolations` puts records in order and keeps one for every rule and
source range; `Report.merge` does so for several partial reports together.
`AuditResult` is the outcome of a run over several files.
-/

namespace StyleAudit

namespace Report

/-- Keep the records whose place is neither among those seen nor that of an
earlier record. -/
def dropSeen (seen : List (String × Span)) : List Violation → List Violation
  | [] => []
  | v :: rest =>
    if seen.contains v.place then dropSeen seen rest
    else v :: dropSeen (v.place :: seen) rest

/-- The records in order, the first of those with the same rule and range. -/
def ofViolations (violations : List Violation) : List Violation :=
  dropSeen [] (violations.mergeSort Violation.atMost)

/-- The report over all records of several partial reports. -/
def merge (partials : List (List Violation)) : List Violation :=
  ofViolations partials.flatten

end Report

/-- The outcome of a run: its records, how much was analyzed, whether it was
cancelled and which files were skipped. -/
structure AuditResult where
  violations : List Violation
  files : Nat
  modules : Nat
  cancelled : Bool
  skipped : List String
  deriving Repr

namespace AuditResult

def hasViolations (result : AuditResult) : Bool :=
  !result.violations.isEmpty

def count (result : AuditResult) (severity : Severity) : Nat :=
  result.violations.countP (·.severity == severity)

/-- Some record reaches the threshold; an error always does. -/
def isBlocked (result : AuditResult) (threshold : Severity) : Bool :=
  result.violations.any fun v =>
    v.severity == .error || decide (threshold.rank ≤ v.severity.rank)

/-- The records of each file, the files in the order of their first records. -/
def byFile (result : AuditResult) : List (String × List Violation) :=
  (result.violations.map (·.span.file)).eraseDups.map fun file =>
    (file, result.violations.filter (·.span.file == file))

end AuditResult
end StyleAudit
