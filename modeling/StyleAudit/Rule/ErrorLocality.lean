import StyleAudit.Rule.Basic
import StyleAudit.Expression.Result

/-!
# Generic errors

A branch that catches everything and returns a bare error tag hides what went
wrong, unless a caller in the module branches on exactly that error.
-/

namespace StyleAudit.ErrorLocality

def branchesOf (n : Node) : List Node :=
  match n.kind with
  | .caseExpr => n.children.drop 1
  | .elseBlock => n.children
  | _ => []

/-- Anonymous functions and nested modules are not searched. -/
def isSeparate : Kind → Bool
  | .fnExpr | .module => true
  | _ => false

/-- The branches of a body whose pattern is a discarded variable. -/
def fallbackBranches (body : Node) : List Node :=
  ((body.outline isSeparate).flatMap branchesOf).filter fun branch =>
    branch.branchParts?.any fun (pattern, _) => pattern.isDiscarding

/-- An error tag alone, or with an atom for a reason. -/
def isGenericError (value : Node) : Bool :=
  match value.kind, value.children with
  | .atom, _ => (value.attr "value").isText "error"
  | .tuple, [_, reason] => value.tag? == some "error" && reason.kind == .atom
  | _, _ => false

/-- Some branch below a body matches exactly the error. -/
def branchesOn (error body : Node) : Bool :=
  body.preorder.any fun inner =>
    inner.kind == .branch &&
      inner.branchParts?.any fun (pattern, _) => pattern.reduced.structurallyEqual error

/-- A caller of the function, other than itself, branches on the error. -/
def isHandledByCaller (context : ModuleContext) (group : FunctionGroup) (error : Node) : Bool :=
  ((context.graph.callers group.key).filter (· != group.key)).any fun caller =>
    (context.scope.function? caller).any fun callerGroup =>
      callerGroup.bodies.any (branchesOn error)

/-- The error that a fallback branch produces, unless a caller handles it. -/
def isUnhandled (context : ModuleContext) (group : FunctionGroup) (branch : Node) : Bool :=
  match branch.branchParts?.bind fun (_, body) => body.singleExpression? with
  | some produced => isGenericError produced && !isHandledByCaller context group produced
  | none => false

def genericError (group : FunctionGroup) (branch : Node) : Finding :=
  ⟨branch.span, s!"{group.key.text} turns every failure into a generic error " ++
    "and no caller here tells them apart; let it fail or return the real reason."⟩

/-- The fallback branches of a clause whose generic error nobody handles. -/
def check (context : ModuleContext) (site : Site) : List Finding :=
  match context.scope.functionForClause? site.path, site.node.children with
  | some group, _ :: body :: _ =>
    ((fallbackBranches body).filter (isUnhandled context group)).map (genericError group)
  | _, _ => []

end StyleAudit.ErrorLocality
