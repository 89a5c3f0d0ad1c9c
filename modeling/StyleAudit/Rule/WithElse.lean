import StyleAudit.Rule.CallOrigin

/-!
# The `else` of a `with`

* `coverage`: a `with` over calls whose failures are not known needs an
  `else`.
* `redundancy`: an `else` that only echoes known failures is superfluous.
* `order`: the branches of an `else` follow the clauses whose failures they
  handle.
-/

namespace StyleAudit.WithElse

/-- The unresolved targets of a `with` that has no `else`. -/
def uncovered (n : Node) (targets : List Target) : List Finding :=
  let unresolved := targets.filter fun target => !target.isResolved
  if unresolved.isEmpty then []
  else
    let names := String.intercalate ", " (Text.sortedDistinct (unresolved.map (·.label)))
    [⟨n.span, s!"`with` calls {names} outside this module but has no `else`; " ++
      "enumerate the failure modes it can return."⟩]

/-- A `with` without an `else` names its unresolved targets. -/
def coverage (trusted : List String) (scope : ModuleScope) (n : Node) : List Finding :=
  if (n.childOfKind? .elseBlock).isSome then []
  else uncovered n (withTargets trusted scope n)

def superfluous (elseBlock : Node) : Finding :=
  ⟨elseBlock.span, "`else` only returns what it matched and every clause is local; remove it."⟩

/-- An `else` of echoes over resolved targets. -/
def redundancy (trusted : List String) (scope : ModuleScope) (n : Node) : List Finding :=
  match n.childOfKind? .elseBlock with
  | none => []
  | some elseBlock =>
    if !elseBlock.children.isEmpty && (withTargets trusted scope n).all (·.isResolved)
        && elseBlock.children.all (·.isEcho) then [superfluous elseBlock]
    else []

/-- The values a clause can produce that are not matched by its own pattern,
where they are known: a value itself, or what the functions of the module
return. -/
def failureSites? (scope : ModuleScope) (target : Target) : Option (List Node) :=
  let sites : Option (List Node) :=
    match target.call with
    | none => if target.expression.kind.isOpaque then none else some [target.expression]
    | some call =>
      if target.isLocal then
        match scope.resolve? ⟨call.name, target.arity⟩ with
        | none => none
        | some group =>
          let known := (group.bodies.flatMap (·.terminals)).filter fun site =>
            !site.kind.isOpaque && site.kind != .withExpr
          if known.isEmpty then none else some known
      else none
  sites.map fun sites => sites.filter fun site => !target.pattern.unifies site

/-- A branch can handle a failure of the clause: it could match one of the
known values, or has the shape of the clause's pattern when none is known. -/
def canHandle (scope : ModuleScope) (pattern : Node) (target : Target) : Bool :=
  match failureSites? scope target with
  | none => pattern.sameShape target.pattern
  | some sites => sites.any pattern.unifies

/-- The first clause whose failure a branch can handle; a branch that matches
everything is not mapped to a clause. -/
def clauseIndex? (scope : ModuleScope) (targets : List Target) (branch : Node) : Option Nat :=
  match branch.branchParts? with
  | none => none
  | some (pattern, _) =>
    if pattern.isCatchAll then none else targets.findIdx? (canHandle scope pattern)

/-- The first branch whose clause comes before that of an earlier branch, with
both clauses. -/
def firstInversion? (index? : Node → Option Nat) (highest : Option Nat) :
    List Node → Option (Node × Nat × Nat)
  | [] => none
  | branch :: rest =>
    match index? branch with
    | none => firstInversion? index? highest rest
    | some index =>
      match highest with
      | some high =>
        if index < high then some (branch, index, high)
        else firstInversion? index? (some index) rest
      | none => firstInversion? index? (some index) rest

/-- A branch that comes too late, with its clause and that of an earlier
branch. -/
def misplaced : Node × Nat × Nat → Finding
  | (branch, index, high) =>
    ⟨branch.span, s!"`else` branch handles clause {index + 1} after a branch for " ++
      s!"clause {high + 1}; order branches like the clauses they handle."⟩

/-- The first branch out of the order of the clauses. -/
def order (trusted : List String) (scope : ModuleScope) (n : Node) : List Finding :=
  let branches := (elseBranches? n).getD []
  let index? := clauseIndex? scope (withTargets trusted scope n)
  ((firstInversion? index? none branches).map misplaced).toList

end StyleAudit.WithElse
