import StyleAudit.Text.Order
import StyleAudit.Tree.Node

/-!
# Violations

A `Violation` is one record of a report: the rule that found it, the source
range, the message and the severity. `Violation.atMost` is the order of
records in a report.
-/

namespace StyleAudit

/-- How serious a record is. -/
inductive Severity
  | violation
  | advisory
  | error
  deriving DecidableEq, Repr, Inhabited

namespace Severity

def all : List Severity := [violation, advisory, error]

def name : Severity → String
  | violation => "violation"
  | advisory => "advisory"
  | error => "error"

def ofName? (word : String) : Option Severity :=
  all.find? (·.name == word)

def rank : Severity → Nat
  | advisory => 0
  | violation => 1
  | error => 2

end Severity

/-- One record of a report. -/
structure Violation where
  ruleId : String
  span : Span
  message : String
  severity : Severity
  deriving DecidableEq, Repr, Inhabited

/-- The rule id of records about modules and files that could not be analyzed. -/
def engineRuleId : String := "engine"

namespace Violation

def engineError (message : String) (span : Span) : Violation :=
  ⟨engineRuleId, span, message, .error⟩

/-- What identifies a record: its rule and its source range. -/
def place (v : Violation) : String × Span :=
  (v.ruleId, v.span)

/-- Compare by one key, and by what follows where the keys are equal. -/
def thenBy {α : Type} [LT α] [DecidableEq α] [DecidableLT α] (a b : α) (next : Bool) : Bool :=
  if a = b then next else decide (a < b)

/-- Compare by one text, and by what follows where the texts are equal. -/
def thenByText (a b : String) (next : Bool) : Bool :=
  if a = b then next else Text.atMost a b

/-- The order of records: by file, line, column and rule, then by the end of
the range and by the message. -/
def atMost (v w : Violation) : Bool :=
  let s := v.span.coordinates
  let t := w.span.coordinates
  thenByText v.span.file w.span.file <|
  thenBy s.startLine t.startLine <|
  thenBy s.startColumn t.startColumn <|
  thenByText v.ruleId w.ruleId <|
  thenBy s.endLine t.endLine <|
  thenBy s.endColumn t.endColumn <|
  Text.atMost v.message w.message

def mapSpan (change : Span → Span) (v : Violation) : Violation :=
  { v with span := change v.span }

end Violation
end StyleAudit
