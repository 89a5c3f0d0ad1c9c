import StyleAudit.Rule.CallOrigin

/-!
# Errors of other modules

A branch that echoes a tagged error of a call into another module passes that
module's vocabulary on.
-/

namespace StyleAudit.ErrorMapping

/-- The branches of a `with` or `case`, and the targets their values come
from. -/
def branchesAndTargets (trusted : List String) (scope : ModuleScope) (n : Node) :
    List Node × List Target :=
  if n.kind = .withExpr then
    ((elseBranches? n).getD [], withTargets trusted scope n)
  else (n.children.drop 1, (caseTarget? trusted scope n).toList)

/-- The tag of an echo branch, unless it is the tag of success. -/
def echoedTag? (branch : Node) : Option String :=
  match branch.branchParts?.bind fun (pattern, _) => pattern.tag? with
  | some tag => if tag ≠ "ok" ∧ branch.isEcho then some tag else none
  | none => none

/-- A branch that passes on a tagged error of a target. -/
def passedThrough (origin : Target) (branch : Node) (tag : String) : Finding :=
  ⟨branch.span, s!"`:{tag}` from {origin.label} is passed through unchanged; " ++
    "consider mapping it to this module's own error vocabulary."⟩

/-- The branches that pass on an error of the first foreign target. -/
def check (trusted : List String) (scope : ModuleScope) (n : Node) : List Finding :=
  let (branches, targets) := branchesAndTargets trusted scope n
  match targets.filter (·.isForeign) with
  | [] => []
  | origin :: _ =>
    branches.filterMap fun branch => (echoedTag? branch).map (passedThrough origin branch)

end StyleAudit.ErrorMapping
