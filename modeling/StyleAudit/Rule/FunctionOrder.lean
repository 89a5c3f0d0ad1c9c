import StyleAudit.Rule.Basic

/-!
# The order of functions

A private function stands below the function that calls it first. Between the
two only other private helpers may stand whose first callers lie in the same
stretch of the module.
-/

namespace StyleAudit.FunctionOrder

/-- The function is a private helper first called from within a stretch of the
module. -/
def belongsBetween (graph : CallGraph) (low high : Nat) (group : FunctionGroup) : Bool :=
  group.isPrivate &&
    ((graph.firstCaller? group.key).bind graph.position?).any fun position =>
      decide (low ≤ position ∧ position < high)

/-- What is wrong with the place of a private function below its first caller,
which is the function at a position. -/
def problem? (functions : List FunctionGroup) (graph : CallGraph) (group : FunctionGroup)
    (caller : FunctionKey) (callerAt : Nat) : Option String :=
  if group.position < callerAt then
    some s!"{group.key.text} is defined above its first caller {caller.text}."
  else
    let between := (functions.take group.position).drop (callerAt + 1)
    if between.all (belongsBetween graph callerAt group.position) then none
    else some (s!"{group.key.text} should follow its first caller {caller.text} directly; " ++
      "unrelated functions sit in between.")

/-- What is wrong with the place of a function. -/
def findingOf? (scope : ModuleScope) (graph : CallGraph) (group : FunctionGroup) :
    Option Finding :=
  if !group.isPrivate then none
  else match graph.firstCaller? group.key with
  | none => none
  | some caller =>
    match graph.position? caller with
    | none => none
    | some callerAt =>
      (problem? scope.functions graph group caller callerAt).map fun message =>
        ⟨group.first.node.span, message⟩

/-- The private functions that are out of place. -/
def check (scope : ModuleScope) (graph : CallGraph) : List Finding :=
  scope.functions.filterMap (findingOf? scope graph)

end StyleAudit.FunctionOrder
