import StyleAudit.Proofs.Nesting.Target
import StyleAudit.Proofs.Rule.WithElse

/-!
# `with` and `case` over emptied modules

The rules about the `else` of a `with` and about errors of other modules find
the same in a module and in the emptied one.
-/

namespace StyleAudit

open Node (AgreeEmptied)

variable {trusted : List String} {m n : Node} {scope : ModuleScope} {targets : List Target}

theorem childOfKind?_emptied_of_with (isWith : n.kind = .withExpr) :
    n.emptied.childOfKind? .elseBlock = (n.childOfKind? .elseBlock).map Node.emptied :=
  childOfKind?_emptied (by rw [isWith]; rfl)

theorem children_emptied_of_else (found : n.childOfKind? .elseBlock = some m) :
    m.emptied.children = m.children.map Node.emptied := by
  have isElse := Node.kind_of_childOfKind? found
  exact Node.children_emptied_of_readsByParts (by rw [isElse]; rfl)

theorem elseBranches?_emptied (isWith : n.kind = .withExpr) :
    elseBranches? n.emptied = (elseBranches? n).map (List.map Node.emptied) := by
  rw [elseBranches?, elseBranches?, childOfKind?_emptied_of_with isWith]
  cases found : n.childOfKind? .elseBlock with
  | none => rfl
  | some elseBlock => simp [children_emptied_of_else found]

theorem echoes_emptied {branches : List Node}
    (areBranches : ∀ branch ∈ branches, branch.kind = .branch ∧ branch.IsWellShaped) :
    (branches.map Node.emptied).all (·.isEcho) = branches.all (·.isEcho) := by
  rw [Bool.eq_iff_iff, List.all_map, List.all_eq_true, List.all_eq_true]
  refine forall₂_congr fun branch member => ?_
  rw [Function.comp_apply, Node.isEcho_emptied (areBranches branch member).1]

theorem all_isResolved_emptied (targets : List Target) :
    (targets.map Target.emptied).all (·.isResolved) = targets.all (·.isResolved) := by
  rw [List.all_map]
  rfl

namespace WithElse

theorem uncovered_emptied (n : Node) (targets : List Target) :
    uncovered n.emptied (targets.map Target.emptied) = uncovered n targets := by
  have sameUnresolved : (targets.map Target.emptied).filter (fun target => !target.isResolved) =
      (targets.filter fun target => !target.isResolved).map Target.emptied := by
    rw [List.filter_map]
    rfl
  rw [uncovered, uncovered, sameUnresolved]
  simp [Function.comp_def, Target.label_emptied]

theorem coverage_emptied (scope : ModuleScope) (shaped : n.IsWellShaped)
    (isWith : n.kind = .withExpr) :
    coverage trusted scope.emptied n.emptied = coverage trusted scope n := by
  rw [coverage, coverage, childOfKind?_emptied_of_with isWith, Option.isSome_map,
    withTargets_emptied scope shaped isWith, uncovered_emptied]

theorem redundancy_emptied (scope : ModuleScope) (shaped : n.IsWellShaped)
    (isWith : n.kind = .withExpr) :
    redundancy trusted scope.emptied n.emptied = redundancy trusted scope n := by
  rw [redundancy, redundancy, childOfKind?_emptied_of_with isWith,
    withTargets_emptied scope shaped isWith]
  cases found : n.childOfKind? .elseBlock with
  | none => rfl
  | some elseBlock =>
      have areBranches : ∀ branch ∈ elseBlock.children,
          branch.kind = .branch ∧ branch.IsWellShaped := by
        simpa [elseBranches?, found] using shaped.elseBranches
      have sameFinding : superfluous elseBlock.emptied = superfluous elseBlock := by
        simp [superfluous]
      simp only [Option.map_some, children_emptied_of_else found, List.isEmpty_map,
        all_isResolved_emptied, echoes_emptied areBranches, sameFinding]

/-! ## The order of branches -/

/-- The sites where a target fails are found outside nested modules. -/
theorem sites_of_failureSites (shaped : m.IsWellShaped) (refers : scope.RefersTo m)
    (target : Target) :
    (failureSites? scope.emptied target.emptied).map (List.map Node.emptied) =
      (failureSites? scope target).map (List.map Node.emptied) := by
  have escape : ∀ {ns ms : List Node}, AgreeEmptied ns ms →
      AgreeEmptied (ns.filter fun site => !target.emptied.pattern.unifies site)
        (ms.filter fun site => !target.pattern.unifies site) := by
    intro ns ms agree
    have samePattern : target.emptied.pattern.unifies = target.pattern.unifies :=
      funext (Node.unifies_emptied_left target.pattern)
    rw [samePattern]
    exact agree.filter fun site => by rw [Node.unifies_emptied_right]
  have sameLocal : target.emptied.isLocal = target.isLocal := rfl
  have sameArity : target.emptied.arity = target.arity := rfl
  have sameCall : target.emptied.call = target.call.map Node.emptied := rfl
  have sameExpression : target.emptied.expression = target.expression.emptied := rfl
  rw [failureSites?, failureSites?, sameCall, sameExpression, sameLocal, sameArity]
  cases target.call with
  | none =>
      simp only [Option.map_none, Node.kind_emptied]
      split
      · rfl
      · exact congrArg some (escape (AgreeEmptied.singleton_emptied target.expression))
  | some call =>
      simp only [Option.map_some, Node.name_emptied, ModuleScope.resolve?_emptied]
      cases target.isLocal with
      | false => rfl
      | true =>
          simp only [if_true]
          cases resolved : scope.resolve? ⟨call.name, target.arity⟩ with
          | none => rfl
          | some group =>
              have agree := (agreeEmptied_sites shaped refers (mem_of_resolveIn resolved)).filter
                (p := fun site => !site.kind.isOpaque && site.kind != .withExpr) (by simp)
              simp only [Option.map_some, agree.isEmpty_eq]
              split
              · rfl
              · exact congrArg some (escape agree)

theorem canHandle_emptied (shaped : m.IsWellShaped) (refers : scope.RefersTo m)
    (pattern : Node) (target : Target) :
    canHandle scope.emptied pattern target.emptied = canHandle scope pattern target := by
  have sameSites := sites_of_failureSites shaped refers target
  rw [canHandle, canHandle]
  cases found : failureSites? scope target with
  | none =>
      rw [found, Option.map_none, Option.map_eq_none_iff] at sameSites
      rw [sameSites]
      exact Node.sameShape_emptied_right pattern target.pattern
  | some sites =>
      rw [found, Option.map_some, Option.map_eq_some_iff] at sameSites
      obtain ⟨sites', found', agree⟩ := sameSites
      rw [found']
      exact AgreeEmptied.any_eq agree (Node.unifies_emptied_right pattern)

theorem clauseIndex?_emptied (shaped : m.IsWellShaped) (refers : scope.RefersTo m)
    (targets : List Target) {branch : Node} (isBranch : branch.kind = .branch) :
    clauseIndex? scope.emptied (targets.map Target.emptied) branch.emptied =
      clauseIndex? scope targets branch := by
  have sameIndex : ∀ pattern, (targets.map Target.emptied).findIdx?
      (canHandle scope.emptied pattern) = targets.findIdx? (canHandle scope pattern) := by
    intro pattern
    rw [List.findIdx?_map]
    refine congrArg (targets.findIdx? ·) (funext fun target => ?_)
    exact canHandle_emptied shaped refers pattern target
  rw [clauseIndex?, clauseIndex?]
  rcases Node.branchParts?_emptied isBranch with same | ⟨pattern, body, parts, _, emptiedParts⟩
  · rw [same]
    simp only [sameIndex]
  · rw [parts, emptiedParts]
    simp only [sameIndex]

theorem firstInversion?_map_emptied {index? index?' : Node → Option Nat} {branches : List Node}
    (same : ∀ branch ∈ branches, index?' branch.emptied = index? branch) (highest : Option Nat) :
    firstInversion? index?' highest (branches.map Node.emptied) =
      (firstInversion? index? highest branches).map (Prod.map Node.emptied id) := by
  induction branches generalizing highest with
  | nil => rfl
  | cons branch rest inductionHypothesis =>
      have later := inductionHypothesis fun other member =>
        same other (List.mem_cons_of_mem _ member)
      rw [List.map_cons, firstInversion?, firstInversion?, same branch List.mem_cons_self]
      cases index? branch with
      | none => exact later highest
      | some index =>
          cases highest with
          | none => exact later (some index)
          | some high =>
              simp only
              split
              · rfl
              · exact later (some index)

/-- The order of branches is judged without a look into nested modules. -/
theorem order_emptied (shaped : m.IsWellShaped) (refers : scope.RefersTo m)
    (nodeShaped : n.IsWellShaped) (isWith : n.kind = .withExpr) :
    order trusted scope.emptied n.emptied = order trusted scope n := by
  have sameIndex : ∀ branch ∈ (elseBranches? n).getD [],
      clauseIndex? scope.emptied ((withTargets trusted scope n).map Target.emptied) branch.emptied =
        clauseIndex? scope (withTargets trusted scope n) branch :=
    fun branch member =>
      clauseIndex?_emptied shaped refers _ (nodeShaped.elseBranches branch member).1
  have sameBranches : (elseBranches? n.emptied).getD [] =
      ((elseBranches? n).getD []).map Node.emptied := by
    rw [elseBranches?_emptied isWith]
    cases elseBranches? n <;> rfl
  rw [order, order, sameBranches, withTargets_emptied scope nodeShaped isWith,
    firstInversion?_map_emptied sameIndex, Option.map_map]
  refine congrArg (fun inverted => (Option.map inverted _).toList) (funext fun found => ?_)
  simp [misplaced]

end WithElse

/-! ## Errors of other modules -/

namespace ErrorMapping

theorem echoedTag?_emptied {branch : Node} (isBranch : branch.kind = .branch) :
    echoedTag? branch.emptied = echoedTag? branch := by
  rw [echoedTag?, echoedTag?, Node.isEcho_emptied isBranch]
  rcases Node.branchParts?_emptied isBranch with same | ⟨pattern, body, parts, _, emptiedParts⟩
  · rw [same]
  · rw [parts, emptiedParts]
    rfl

theorem branchesAndTargets_emptied (scope : ModuleScope) (shaped : n.IsWellShaped)
    (isHandled : n.kind = .caseExpr ∨ n.kind = .withExpr) :
    branchesAndTargets trusted scope.emptied n.emptied =
      Prod.map (List.map Node.emptied) (List.map Target.emptied)
        (branchesAndTargets trusted scope n) := by
  rw [branchesAndTargets, branchesAndTargets, Node.kind_emptied]
  rcases isHandled with isCase | isWith
  · have notWith : ¬n.kind = .withExpr := by
      rw [isCase]
      decide
    rw [if_neg notWith, if_neg notWith, caseTarget?_emptied scope shaped isCase,
      Node.children_emptied_of_readsByParts (by rw [isCase]; rfl)]
    cases caseTarget? trusted scope n <;> simp
  · rw [if_pos isWith, if_pos isWith, withTargets_emptied scope shaped isWith,
      elseBranches?_emptied isWith]
    cases elseBranches? n <;> rfl

theorem check_emptied (scope : ModuleScope) (shaped : n.IsWellShaped)
    (isHandled : n.kind = .caseExpr ∨ n.kind = .withExpr) :
    check trusted scope.emptied n.emptied = check trusted scope n := by
  have areBranches : ∀ branch ∈ (branchesAndTargets trusted scope n).1,
      branch.kind = .branch ∧ branch.IsWellShaped :=
    (readBranchesAndTargets_eq shaped isHandled).2
  rw [check, check, branchesAndTargets_emptied scope shaped isHandled]
  generalize branchesAndTargets trusted scope n = found at areBranches
  obtain ⟨branches, targets⟩ := found
  have sameForeign : (targets.map Target.emptied).filter (·.isForeign) =
      (targets.filter (·.isForeign)).map Target.emptied := by
    simp [List.filter_map, Function.comp_def, Target.isForeign_emptied]
  simp only [Prod.map, sameForeign]
  cases targets.filter (·.isForeign) with
  | nil => rfl
  | cons origin others =>
      change List.filterMap _ (branches.map Node.emptied) = List.filterMap _ branches
      rw [List.filterMap_map]
      refine List.filterMap_congr fun branch member => ?_
      have sameFinding : passedThrough origin.emptied branch.emptied =
          passedThrough origin branch := by
        funext tag
        simp [passedThrough, Target.label_emptied]
      rw [Function.comp_apply, echoedTag?_emptied (areBranches branch member).1, sameFinding]

end ErrorMapping
end StyleAudit
