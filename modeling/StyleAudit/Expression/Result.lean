import StyleAudit.Expression.Call

/-!
# What expressions return

* `Node.isEcho` holds of a branch that returns what it matched.
* `Node.terminals` are the expressions whose value a body can return.
* `Node.returnKind` classifies such an expression.
* `Node.isBooleanValued` holds of expressions known to be true or false.
-/

namespace StyleAudit

/-- What a return site yields. -/
inductive ReturnKind
  | ok
  | error
  | raise
  | plain
  | unknown
  deriving DecidableEq, Repr

def ReturnKind.name : ReturnKind → String
  | ok => "ok"
  | error => "error"
  | raise => "raise"
  | plain => "plain"
  | unknown => "unknown"

def comparisonOperators : List String :=
  ["==", "!=", "===", "!==", "<", ">", "<=", ">=", "=~", "in", "not in"]

def booleanOperators : List String := ["and", "or", "&&", "||"]

def negationOperators : List String := ["not", "!"]

namespace Node

def branchParts? (branch : Node) : Option (Node × Node) :=
  match branch.children with
  | pattern :: body :: _ => some (pattern, body)
  | _ => none

/-- The only expression of a body: that of a block with one child, or a body
that is no block. -/
def singleExpression? (body : Node) : Option Node :=
  if body.kind = .block then
    match body.children with
    | [expression] => some expression
    | _ => none
  else some body

/-- The body of a branch is the value its pattern matched. -/
def isEcho (branch : Node) : Bool :=
  match branch.branchParts? with
  | some (pattern, body) => body.singleExpression?.any pattern.reduced.structurallyEqual
  | none => false

def holdsVariable (n : Node) : Bool :=
  n.preorder.any (·.kind == .var)

mutual

/-- The expressions whose value can become that of the node. An `if` without
an alternative and a `with` without an `else` can also end without one, and
stand for that themselves. -/
def terminals : Node → List Node
  | ⟨kind, span, attributes, children⟩ =>
    match kind with
    | .block => lastTerminals ⟨kind, span, attributes, children⟩ children
    | .ifExpr => choiceTerminals ⟨kind, span, attributes, children⟩ children
    | .caseExpr => caseTerminals children
    | .condExpr => armTerminals children
    | .withExpr =>
      doTerminals children ++ elseTerminals ⟨kind, span, attributes, children⟩ children
    | .matchExpr => matchTerminals ⟨kind, span, attributes, children⟩ children
    | _ => [⟨kind, span, attributes, children⟩]
  termination_by structural n => n

/-- The terminals of the last expression of a block; an empty block is its own
terminal. -/
def lastTerminals (block : Node) : List Node → List Node
  | [] => [block]
  | [last] => terminals last
  | _ :: next :: rest => lastTerminals block (next :: rest)
  termination_by structural ns => ns

/-- The terminals of both alternatives of an `if`. -/
def choiceTerminals (whole : Node) : List Node → List Node
  | [_, consequent] => terminals consequent ++ [whole]
  | _ :: consequent :: alternative :: _ => terminals consequent ++ terminals alternative
  | _ => [whole]
  termination_by structural ns => ns

/-- The terminals of the arms after the subject of a `case`. -/
def caseTerminals : List Node → List Node
  | [] => []
  | _ :: arms => armTerminals arms
  termination_by structural ns => ns

/-- The terminals of the bodies of branches. -/
def armTerminals : List Node → List Node
  | [] => []
  | ⟨_, _, _, _ :: body :: _⟩ :: rest => terminals body ++ armTerminals rest
  | _ :: rest => armTerminals rest
  termination_by structural ns => ns

/-- The terminals of the first block among the children of a `with`. -/
def doTerminals : List Node → List Node
  | [] => []
  | child :: rest => if child.kind = .block then terminals child else doTerminals rest
  termination_by structural ns => ns

/-- The terminals of the branches of the first `else` among the children of a
`with`, or the `with` itself when there is none. -/
def elseTerminals (whole : Node) : List Node → List Node
  | [] => [whole]
  | ⟨kind, _, _, branches⟩ :: rest =>
    if kind = .elseBlock then armTerminals branches else elseTerminals whole rest
  termination_by structural ns => ns

/-- A match returns its value, known by its pattern when that binds nothing. -/
def matchTerminals (whole : Node) : List Node → List Node
  | pattern :: value :: _ => if pattern.holdsVariable then terminals value else [pattern]
  | _ => [whole]
  termination_by structural ns => ns

end

def isRaise (n : Node) : Bool :=
  n.kind == .raise ||
    n.kind == .call && ["raise", "reraise", "throw", "exit"].contains n.name &&
      ((n.attr "module").isNull || (n.attr "module").isText "Kernel")

/-- The kind of a call by its name: one that may raise returns a plain value. -/
def callReturnKind (call : Node) : ReturnKind :=
  if Text.ends call.name "!" then .plain else .unknown

def returnKind (n : Node) : ReturnKind :=
  let tag := if n.kind = .atom ∨ n.kind = .tuple then n.tag? else none
  if tag = some "ok" then .ok
  else if tag = some "error" then .error
  else if n.isRaise then .raise
  else match n.kind with
    | .var | .access | .withExpr => .unknown
    | .call | .pipe => (n.outerCall?.map callReturnKind).getD .unknown
    | _ => .plain

/-- The name of a call promises a truth value. -/
def promisesBoolean (call : Node) : Bool :=
  Text.ends call.name "?" || Text.begins call.name "is_"

/-- The expression is known to be true or false. -/
def isBooleanValued (n : Node) : Bool :=
  match n.kind with
  | .literal => match n.attr "value" with
    | .one (.bool _) => true
    | _ => false
  | .atom => (n.attr "value").isTextIn ["true", "false"]
  | .binaryOp => (n.attr "operator").isTextIn (comparisonOperators ++ booleanOperators)
  | .unaryOp => (n.attr "operator").isTextIn negationOperators
  | .call | .pipe => n.outerCall?.any promisesBoolean
  | _ => false

/-- A status and a value written as a list. -/
def isStatusList (n : Node) : Bool :=
  match n.kind, n.children with
  | .list, first :: _ :: _ =>
    first.kind == .atom && (first.attr "value").isTextIn ["ok", "error"]
  | _, _ => false

end Node
end StyleAudit
