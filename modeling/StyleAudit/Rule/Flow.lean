import StyleAudit.Rule.Basic
import StyleAudit.Expression.Result

/-!
# Flow of control

A conditional that does nothing but pass on to another conditional can be
flattened.
-/

namespace StyleAudit.Flow

def isConditional : Kind → Bool
  | .caseExpr | .ifExpr | .condExpr | .withExpr => true
  | _ => false

def isDispatch (body : Node) : Bool :=
  body.singleExpression?.any fun expression => isConditional expression.kind

/-- All but one of at least two branches are echoes, and that one is a
conditional. -/
def isFlattenableCase (branches : List Node) : Bool :=
  match branches.filter fun branch => !branch.isEcho with
  | [working] =>
    decide (2 ≤ branches.length) &&
      working.branchParts?.any fun (_, body) => isDispatch body
  | _ => false

/-- The conditional only forwards to another one. -/
def isFlattenable (n : Node) : Bool :=
  match n.kind, n.children with
  | .ifExpr, [_, consequent] => isDispatch consequent
  | .caseExpr, _ :: branches => isFlattenableCase branches
  | _, _ => false

def hint (kind : Kind) : String :=
  if kind = .ifExpr then "combine the conditions" else "use `with`"

/-- A conditional that only forwards, and what to do about it. -/
def forwarding (n : Node) : Finding :=
  ⟨n.span, s!"`{n.kind.name}` only forwards to a nested conditional; {hint n.kind} instead."⟩

def directiveChoice (n : Node) : List Finding :=
  if isFlattenable n then [forwarding n] else []

end StyleAudit.Flow
