import StyleAudit.Proofs.Ranges.Scope
import StyleAudit.Rule.ErrorMapping
import StyleAudit.Rule.WithElse

/-!
# Targets with other source ranges

Functions and targets are looked up in a scope by names, numbers and positions,
so the rules about `with` and `case` find the same when source ranges change, at
the changed ranges.
-/

namespace StyleAudit

variable (change : Span → Span)

/-- The finding at another source range. -/
def Finding.mapSpan (finding : Finding) : Finding :=
  { finding with span := change finding.span }

def Target.mapSpans (target : Target) : Target :=
  { target with
    pattern := target.pattern.mapSpans change
    expression := target.expression.mapSpans change
    call := target.call.map (Node.mapSpans change) }

/-! ## Look-ups -/

section LookUp

variable (scope : ModuleScope)

@[simp]
theorem ModuleScope.resolve?_mapSpans (key : FunctionKey) :
    (scope.mapSpans change).resolve? key =
      (scope.resolve? key).map (FunctionGroup.mapSpans change) :=
  resolveIn_map change scope.functions key

@[simp]
theorem ModuleScope.function?_mapSpans (key : FunctionKey) :
    (scope.mapSpans change).function? key =
      (scope.function? key).map (FunctionGroup.mapSpans change) :=
  List.find?_map

@[simp]
theorem ModuleScope.functionForClause?_mapSpans (path : NodePath) :
    (scope.mapSpans change).functionForClause? path =
      (scope.functionForClause? path).map (FunctionGroup.mapSpans change) := by
  match path with
  | [] => rfl
  | [position] =>
      simp only [functionForClause?, mapSpans, List.find?_map, Function.comp_def,
        FunctionGroup.clauses_mapSpans, List.any_map]
      rfl
  | _ :: _ :: _ => rfl

@[simp]
theorem ModuleScope.importAt?_mapSpans (path : NodePath) :
    (scope.mapSpans change).importAt? path =
      (scope.importAt? path).map (ImportDecl.mapSpan change) :=
  List.find?_map

theorem unqualifiedOrigin_mapSpans (trusted : List String) (key : FunctionKey) :
    unqualifiedOrigin trusted (scope.mapSpans change) key =
      unqualifiedOrigin trusted scope key := by
  simp only [unqualifiedOrigin, ModuleScope.mapSpans, importedFrom?_map, List.any_map]
  rfl

theorem callOrigin_mapSpans (trusted : List String) (call : Node) (arity : Nat) :
    callOrigin trusted (scope.mapSpans change) (call.mapSpans change) arity =
      callOrigin trusted scope call arity := by
  have sameLocal : (scope.mapSpans change).isLocal = scope.isLocal := rfl
  have sameName : (scope.mapSpans change).name = scope.name := rfl
  simp [callOrigin, sameLocal, sameName, unqualifiedOrigin_mapSpans]

end LookUp

/-! ## Targets -/

section Targets

variable (trusted : List String) (scope : ModuleScope)

theorem Target.ofExpression_mapSpans (pattern expression : Node) :
    ofExpression trusted (scope.mapSpans change) (pattern.mapSpans change)
        (expression.mapSpans change) =
      (ofExpression trusted scope pattern expression).mapSpans change := by
  rw [ofExpression, ofExpression, Node.callTarget?_mapSpans]
  cases expression.callTarget? with
  | none => rfl
  | some called => simp [mapSpans, callOrigin_mapSpans]

@[simp]
theorem Target.label_mapSpans (target : Target) : (target.mapSpans change).label = target.label := by
  rw [label, label]
  cases called : target.call <;> simp [mapSpans, called]

@[simp]
theorem Target.isForeign_mapSpans (target : Target) :
    (target.mapSpans change).isForeign = target.isForeign := by
  simp [isForeign, mapSpans]

theorem withTargets_mapSpans (n : Node) :
    withTargets trusted (scope.mapSpans change) (n.mapSpans change) =
      (withTargets trusted scope n).map (Target.mapSpans change) := by
  rw [withTargets, withTargets, Node.childrenOfKind_mapSpans, List.filterMap_map,
    List.map_filterMap]
  refine List.filterMap_congr fun clause _ => ?_
  simp [Function.comp_def, Target.ofExpression_mapSpans]

theorem caseTarget?_mapSpans (n : Node) :
    caseTarget? trusted (scope.mapSpans change) (n.mapSpans change) =
      (caseTarget? trusted scope n).map (Target.mapSpans change) := by
  simp [caseTarget?, Function.comp_def, Target.ofExpression_mapSpans]

theorem elseBranches?_mapSpans (n : Node) :
    elseBranches? (n.mapSpans change) =
      (elseBranches? n).map (List.map (Node.mapSpans change)) := by
  simp [elseBranches?, Node.childOfKind?_mapSpans, Function.comp_def]

end Targets

/-! ## The `else` of a `with` -/

namespace WithElse

variable (trusted : List String) (scope : ModuleScope)

theorem uncovered_mapSpans (n : Node) (targets : List Target) :
    uncovered (n.mapSpans change) (targets.map (Target.mapSpans change)) =
      (uncovered n targets).map (Finding.mapSpan change) := by
  have sameUnresolved : (targets.map (Target.mapSpans change)).filter
        (fun target => !target.isResolved) =
      (targets.filter fun target => !target.isResolved).map (Target.mapSpans change) := by
    rw [List.filter_map]
    rfl
  simp only [uncovered, sameUnresolved, List.isEmpty_map, List.map_map, Function.comp_def,
    Target.label_mapSpans, Node.span_mapSpans]
  split <;> rfl

theorem coverage_mapSpans (n : Node) :
    coverage trusted (scope.mapSpans change) (n.mapSpans change) =
      (coverage trusted scope n).map (Finding.mapSpan change) := by
  rw [coverage, coverage, Node.childOfKind?_mapSpans, Option.isSome_map, withTargets_mapSpans,
    uncovered_mapSpans]
  split <;> rfl

theorem redundancy_mapSpans (n : Node) :
    redundancy trusted (scope.mapSpans change) (n.mapSpans change) =
      (redundancy trusted scope n).map (Finding.mapSpan change) := by
  have sameResolved : ((withTargets trusted scope n).map (Target.mapSpans change)).all
        (·.isResolved) = (withTargets trusted scope n).all (·.isResolved) := by
    rw [List.all_map]
    rfl
  rw [redundancy, redundancy, Node.childOfKind?_mapSpans, withTargets_mapSpans, sameResolved]
  cases n.childOfKind? .elseBlock with
  | none => rfl
  | some elseBlock =>
      simp only [Option.map_some, Node.children_mapSpans, List.isEmpty_map, List.all_map,
        Function.comp_def, Node.isEcho_mapSpans]
      split
      · simp [superfluous, Finding.mapSpan]
      · rfl

/-- The sites where a target fails move with the source ranges. -/
theorem failureSites?_mapSpans (target : Target) :
    failureSites? (scope.mapSpans change) (target.mapSpans change) =
      (failureSites? scope target).map (List.map (Node.mapSpans change)) := by
  have escape : ∀ sites : List Node,
      (sites.map (Node.mapSpans change)).filter
          (fun site => !(target.mapSpans change).pattern.unifies site) =
        (sites.filter fun site => !target.pattern.unifies site).map (Node.mapSpans change) := by
    intro sites
    simp [List.filter_map, Function.comp_def, Target.mapSpans]
  have known : ∀ group : FunctionGroup,
      (((group.mapSpans change).bodies.flatMap (·.terminals)).filter fun site =>
          !site.kind.isOpaque && site.kind != .withExpr) =
        ((group.bodies.flatMap (·.terminals)).filter fun site =>
          !site.kind.isOpaque && site.kind != .withExpr).map (Node.mapSpans change) := by
    intro group
    simp only [FunctionGroup.bodies_mapSpans, List.flatMap_map, Node.terminals_mapSpans,
      ← List.map_flatMap, List.filter_map, Function.comp_def, Node.kind_mapSpans]
  have sameLocal : (target.mapSpans change).isLocal = target.isLocal := rfl
  have sameArity : (target.mapSpans change).arity = target.arity := rfl
  have sameCall : (target.mapSpans change).call = target.call.map (Node.mapSpans change) := rfl
  have sameExpression : (target.mapSpans change).expression =
    target.expression.mapSpans change := rfl
  rw [failureSites?, failureSites?, sameCall, sameExpression, sameLocal, sameArity]
  cases target.call with
  | none =>
      simp only [Option.map_none, Node.kind_mapSpans]
      split
      · rfl
      · exact congrArg some (escape [target.expression])
  | some call =>
      simp only [Option.map_some, Node.name_mapSpans, ModuleScope.resolve?_mapSpans]
      cases target.isLocal with
      | false => rfl
      | true =>
          simp only [if_true]
          cases scope.resolve? ⟨call.name, target.arity⟩ with
          | none => rfl
          | some group =>
              simp only [Option.map_some, known, List.isEmpty_map]
              split
              · rfl
              · exact congrArg some (escape _)

theorem canHandle_mapSpans (pattern : Node) (target : Target) :
    canHandle (scope.mapSpans change) (pattern.mapSpans change) (target.mapSpans change) =
      canHandle scope pattern target := by
  rw [canHandle, canHandle, failureSites?_mapSpans]
  cases failureSites? scope target with
  | none => exact Node.sameShape_mapSpans change pattern target.pattern
  | some sites => simp [List.any_map, Function.comp_def]

theorem clauseIndex?_mapSpans (targets : List Target) (branch : Node) :
    clauseIndex? (scope.mapSpans change) (targets.map (Target.mapSpans change))
        (branch.mapSpans change) =
      clauseIndex? scope targets branch := by
  rw [clauseIndex?, clauseIndex?, Node.branchParts?_mapSpans]
  cases branch.branchParts? with
  | none => rfl
  | some parts =>
      obtain ⟨pattern, body⟩ := parts
      simp only [Option.map_some, Prod.map, Node.isCatchAll_mapSpans, List.findIdx?_map,
        Function.comp_def, canHandle_mapSpans]

theorem firstInversion?_map {index? otherIndex? : Node → Option Nat}
    (same : ∀ branch, otherIndex? (branch.mapSpans change) = index? branch)
    (highest : Option Nat) (branches : List Node) :
    firstInversion? otherIndex? highest (branches.map (Node.mapSpans change)) =
      (firstInversion? index? highest branches).map (Prod.map (Node.mapSpans change) id) := by
  induction branches generalizing highest with
  | nil => rfl
  | cons branch rest inductionHypothesis =>
      rw [List.map_cons, firstInversion?, firstInversion?, same]
      cases index? branch with
      | none => exact inductionHypothesis highest
      | some index =>
          cases highest with
          | none => exact inductionHypothesis (some index)
          | some high =>
              simp only
              split
              · rfl
              · exact inductionHypothesis (some index)

theorem order_mapSpans (n : Node) :
    order trusted (scope.mapSpans change) (n.mapSpans change) =
      (order trusted scope n).map (Finding.mapSpan change) := by
  have sameBranches : (elseBranches? (n.mapSpans change)).getD [] =
      ((elseBranches? n).getD []).map (Node.mapSpans change) := by
    rw [elseBranches?_mapSpans]
    cases elseBranches? n <;> rfl
  have moved : ∀ found : Node × Nat × Nat,
      misplaced (found.map (Node.mapSpans change) id) = (misplaced found).mapSpan change := by
    intro found
    simp [misplaced, Finding.mapSpan]
  rw [order, order, sameBranches, withTargets_mapSpans,
    firstInversion?_map change (clauseIndex?_mapSpans change scope _), Option.map_map]
  cases firstInversion? _ none ((elseBranches? n).getD []) with
  | none => rfl
  | some found => exact congrArg List.singleton (moved found)

end WithElse

/-! ## Errors of other modules -/

namespace ErrorMapping

variable (trusted : List String) (scope : ModuleScope)

@[simp]
theorem echoedTag?_mapSpans (branch : Node) :
    echoedTag? (branch.mapSpans change) = echoedTag? branch := by
  simp only [echoedTag?, Node.branchParts?_mapSpans, Node.isEcho_mapSpans]
  cases branch.branchParts? with
  | none => rfl
  | some parts => simp

theorem branchesAndTargets_mapSpans (n : Node) :
    branchesAndTargets trusted (scope.mapSpans change) (n.mapSpans change) =
      Prod.map (List.map (Node.mapSpans change)) (List.map (Target.mapSpans change))
        (branchesAndTargets trusted scope n) := by
  simp only [branchesAndTargets, Node.kind_mapSpans, elseBranches?_mapSpans,
    withTargets_mapSpans, caseTarget?_mapSpans, Node.children_mapSpans]
  split
  · cases elseBranches? n <;> rfl
  · cases caseTarget? trusted scope n <;> simp

theorem check_mapSpans (n : Node) :
    check trusted (scope.mapSpans change) (n.mapSpans change) =
      (check trusted scope n).map (Finding.mapSpan change) := by
  rw [check, check, branchesAndTargets_mapSpans]
  obtain ⟨branches, targets⟩ := branchesAndTargets trusted scope n
  have sameForeign : (targets.map (Target.mapSpans change)).filter (·.isForeign) =
      (targets.filter (·.isForeign)).map (Target.mapSpans change) := by
    simp [List.filter_map, Function.comp_def]
  simp only [Prod.map, sameForeign]
  cases targets.filter (·.isForeign) with
  | nil => rfl
  | cons origin others =>
      have moved : ∀ branch, passedThrough (origin.mapSpans change) (branch.mapSpans change) =
          fun tag => (passedThrough origin branch tag).mapSpan change := by
        intro branch
        funext tag
        simp [passedThrough, Finding.mapSpan]
      change List.filterMap _ (branches.map (Node.mapSpans change)) =
        List.map _ (branches.filterMap _)
      rw [List.filterMap_map, List.map_filterMap]
      refine List.filterMap_congr fun branch _ => ?_
      rw [Function.comp_apply, echoedTag?_mapSpans, moved, Option.map_map]
      rfl

end ErrorMapping
end StyleAudit
