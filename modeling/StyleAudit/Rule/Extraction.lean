import StyleAudit.Rule.Basic
import StyleAudit.Expression.Call

/-!
# Successive field extractions

Three or more successive bindings that pick fields out of one value, or out of
one another, read better as a single pattern match.
-/

namespace StyleAudit.Extraction

/-- The calls that count as one field access. -/
def fieldAccessors : List String := ["Map.get", "Map.fetch!", "Access.get"]

/-- The least number of bindings that are reported. -/
def shortestChain : Nat := 3

def extraction? (expression : Node) : Option (String × String) :=
  match expression.kind, expression.children with
  | .matchExpr, pattern :: value :: _ =>
    if pattern.kind = .var then
      (value.accessRoot? fieldAccessors).map fun (base, _) => (pattern.name, base)
    else none
  | _, _ => none

/-- A run of bindings: its first expression, its length, and the variables
that a further binding may start from. -/
structure Run where
  first : Node
  length : Nat
  roots : List String
  deriving Repr

/-- A run that is long enough. -/
def Run.finding (run : Run) : List Finding :=
  if run.length < shortestChain then []
  else [⟨run.first.span, s!"{run.length} successive bindings pick fields out of one value; " ++
    "destructure it with a single pattern match."⟩]

def closeRun : Option Run → List Finding
  | none => []
  | some run => run.finding

/-- The runs among the expressions, the first continuing an open one. -/
def scan (current : Option Run) : List Node → List Finding
  | [] => closeRun current
  | expression :: rest =>
    match extraction? expression, current with
    | none, _ => closeRun current ++ scan none rest
    | some (name, base), some run =>
      if run.roots.contains base then
        scan (some ⟨run.first, run.length + 1, name :: run.roots⟩) rest
      else run.finding ++ scan (some ⟨expression, 1, [name, base]⟩) rest
    | some (name, base), none => scan (some ⟨expression, 1, [name, base]⟩) rest

/-- The long runs of a block. -/
def check (n : Node) : List Finding :=
  scan none n.children

end StyleAudit.Extraction
