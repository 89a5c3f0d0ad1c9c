import StyleAudit.Rule.Basic
import StyleAudit.Expression.Result

/-!
# Where calls land

The clauses of a `with` and the subject of a `case` usually call a function.
`callOrigin` decides whether such a call lands in the same module, in a
trusted library or elsewhere, and `Target` records it together with the
pattern that the result must match.
-/

namespace StyleAudit

/-- The module a call lands in, if it is known; whether that is the module
itself; and whether the failures of the call are known. -/
structure Origin where
  module : Option String
  isLocal : Bool
  isResolved : Bool
  deriving DecidableEq, Repr

/-- The origin of an unqualified call that no function of the module answers:
an import that lists it, or the kernel unless some import may provide it. -/
def unqualifiedOrigin (trusted : List String) (scope : ModuleScope) (key : FunctionKey) :
    Origin :=
  match importedFrom? scope.imports key with
  | some target => ⟨some target, false, trusted.contains target⟩
  | none =>
    if scope.imports.any (·.importsUnknownNames) then ⟨none, false, false⟩
    else ⟨some "Kernel", false, trusted.contains "Kernel"⟩

def callOrigin (trusted : List String) (scope : ModuleScope) (call : Node) (arity : Nat) :
    Origin :=
  let qualifier := call.qualifier?
  let key : FunctionKey := ⟨call.name, arity⟩
  if scope.isLocal qualifier then
    if (scope.resolve? key).isSome then ⟨some scope.name, true, true⟩
    else match qualifier with
      | some module => ⟨some module, false, false⟩
      | none => unqualifiedOrigin trusted scope key
  else ⟨qualifier, false, qualifier.any trusted.contains⟩

/-- What a clause matches against: a pattern, the expression on the other side
and the call that the expression makes, if it makes one. -/
structure Target where
  pattern : Node
  expression : Node
  call : Option Node
  arity : Nat
  module : Option String
  isLocal : Bool
  isResolved : Bool
  deriving Repr

namespace Target

/-- The target of an expression; one that makes no call is resolved. -/
def ofExpression (trusted : List String) (scope : ModuleScope) (pattern expression : Node) :
    Target :=
  match expression.callTarget? with
  | none => ⟨pattern, expression, none, 0, none, false, true⟩
  | some (call, arity) =>
    let origin := callOrigin trusted scope call arity
    ⟨pattern, expression, some call, arity, origin.module, origin.isLocal, origin.isResolved⟩

def label (target : Target) : String :=
  match target.call with
  | none => "<value>"
  | some call =>
    let qualifier := match target.module with
      | none | some "" => ""
      | some module => module ++ "."
    s!"{qualifier}{call.name}/{target.arity}"

/-- A call into another module that is not trusted. -/
def isForeign (target : Target) : Bool :=
  target.call.isSome && !target.isLocal && !target.isResolved

end Target

def withTargets (trusted : List String) (scope : ModuleScope) (n : Node) : List Target :=
  (n.childrenOfKind .withClause).filterMap fun clause =>
    clause.branchParts?.map fun (pattern, expression) =>
      Target.ofExpression trusted scope pattern expression

def caseTarget? (trusted : List String) (scope : ModuleScope) (n : Node) : Option Target :=
  n.children.head?.map fun subject => Target.ofExpression trusted scope subject subject

def elseBranches? (n : Node) : Option (List Node) :=
  (n.childOfKind? .elseBlock).map (·.children)

end StyleAudit
