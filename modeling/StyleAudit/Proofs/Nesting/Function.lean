import StyleAudit.Proofs.Nesting.Target
import StyleAudit.Proofs.Rule.Function
import StyleAudit.Rule.FunctionOrder

/-!
# Functions of emptied modules

The rules about functions look at the bodies of the function that a clause
belongs to. What they find in a module they find in the emptied one, with one
exception: a generic error is forgiven when a caller branches on it, and such
branches are looked for inside nested modules as well. `isHandledByCaller_eq`
says what that look-up depends on.
-/

namespace StyleAudit

open Node (AgreeEmptied)

variable {m m' n : Node} {scope scope' : ModuleScope} {group : FunctionGroup}

/-! ## Names -/

namespace Naming

/-- What a function or a match declares is kept. -/
theorem sequential_emptied (declares : n.kind = .function ∨ n.kind = .matchExpr) :
    sequential n.emptied = sequential n := by
  obtain ⟨kind, span, attributes, children⟩ := n
  rcases declares with isFunction | isMatch
  · cases isFunction
    cases children <;> rfl
  · cases isMatch
    cases children <;> rfl

theorem returnsBoolean_emptied (shaped : m.IsWellShaped) (refers : scope.RefersTo m)
    (member : group ∈ scope.functions) :
    returnsBoolean group.emptied = returnsBoolean group := by
  have agree := agreeEmptied_sites shaped refers member
  simp only [returnsBoolean]
  rw [agree.isEmpty_eq, agree.all_eq Node.isBooleanValued_emptied]

theorem misnamed_emptied (group : FunctionGroup) (n : Node) (problems : List String) :
    misnamed group.emptied n.emptied problems = misnamed group n problems := by
  cases problems with
  | nil => rfl
  | cons first rest => simp [misnamed]

theorem predicate_emptied (settings : RuleSettings) (shaped : m.IsWellShaped)
    (refers : scope.RefersTo m) (path : NodePath) (n : Node) :
    predicate settings scope.emptied ⟨path, n.emptied⟩ = predicate settings scope ⟨path, n⟩ := by
  rw [predicate, predicate, ModuleScope.functionForClause?_emptied]
  cases found : scope.functionForClause? path with
  | none => rfl
  | some group =>
      have sameFirst : group.emptied.first.position = group.first.position := rfl
      have sameBoolean := returnsBoolean_emptied shaped refers (mem_of_functionForClause found)
      simp only [Option.map_some, sameFirst, sameBoolean, misnamed_emptied,
        FunctionGroup.key_emptied]

end Naming

/-! ## The order of functions -/

namespace FunctionOrder

theorem problem?_emptied (functions : List FunctionGroup) (graph : CallGraph)
    (group : FunctionGroup) (caller : FunctionKey) (callerAt : Nat) :
    problem? (functions.map FunctionGroup.emptied) graph group.emptied caller callerAt =
      problem? functions graph group caller callerAt := by
  have samePosition : group.emptied.position = group.position := rfl
  simp only [problem?, samePosition, FunctionGroup.key_emptied, ← List.map_take, ← List.map_drop,
    List.all_map]
  rfl

theorem check_emptied (scope : ModuleScope) (graph : CallGraph) :
    check scope.emptied graph = check scope graph := by
  have sameFunctions : scope.emptied.functions = scope.functions.map FunctionGroup.emptied := rfl
  rw [check, check, sameFunctions, List.filterMap_map]
  refine List.filterMap_congr fun group _ => ?_
  have samePrivate : group.emptied.isPrivate = group.isPrivate := rfl
  have sameSpan : group.emptied.first.node.span = group.first.node.span :=
    Node.span_emptied group.first.node
  simp only [Function.comp_apply, findingOf?, samePrivate, FunctionGroup.key_emptied, sameFunctions,
    problem?_emptied, sameSpan]

end FunctionOrder

/-! ## Options and status pairs -/

namespace OptionFormat

theorem check_emptied (names : List String) (shaped : n.IsWellShaped)
    (isFunction : n.kind = .function) :
    check names n.emptied = check names n := by
  obtain ⟨params, body, rest, children, _, bodyShaped⟩ :=
    shaped.exists_pair (by rw [isFunction]; rfl)
  have emptiedChildren : n.emptied.children = params :: body.emptied :: rest.map Node.emptied := by
    rw [Node.children_emptied (by simp [isFunction]), children]
    simp [Node.readWhole, isFunction]
  have sameSites : (body.emptied.terminals.filter (·.isStatusList)).map statusList =
      (body.terminals.filter (·.isStatusList)).map statusList :=
    (bodyShaped.agreeEmptied_terminals.filter Node.isStatusList_emptied).map_eq
      fun site => by simp [statusList]
  rw [check, check, children, emptiedChildren]
  simp only [sameSites]

end OptionFormat

/-! ## Tagged results -/

namespace Tagging

theorem judge_emptied (group : FunctionGroup) (n : Node) {sites others : List Node}
    (agree : AgreeEmptied sites others) :
    judge group.emptied n.emptied (sites.map fun returned => (returned, returned.returnKind)) =
      judge group n (others.map fun returned => (returned, returned.returnKind)) := by
  have sameAny : ∀ kind : ReturnKind, (sites.any fun site => site.returnKind == kind) =
      others.any fun site => site.returnKind == kind := by
    intro kind
    exact agree.any_eq fun site => by rw [Node.returnKind_emptied]
  have sameAll : (sites.all fun site => site.returnKind == .ok || site.returnKind == .raise) =
      others.all fun site => site.returnKind == .ok || site.returnKind == .raise :=
    agree.all_eq fun site => by rw [Node.returnKind_emptied]
  have samePlain : ∀ message : String,
      ((sites.filter fun site => site.returnKind == .plain).map fun site =>
        (⟨site.span, message⟩ : Finding)) =
      (others.filter fun site => site.returnKind == .plain).map fun site =>
        ⟨site.span, message⟩ := by
    intro message
    exact (agree.filter fun site => by rw [Node.returnKind_emptied]).map_eq fun site => by simp
  simp only [judge, List.any_map, List.all_map, List.filter_map, List.map_map, Function.comp_def,
    sameAny, sameAll, samePlain, FunctionGroup.key_emptied, Node.span_emptied]

theorem check_emptied (shaped : m.IsWellShaped) (refers : scope.RefersTo m) (path : NodePath)
    (n : Node) : check scope.emptied ⟨path, n.emptied⟩ = check scope ⟨path, n⟩ := by
  rw [check, check, ModuleScope.functionForClause?_emptied]
  cases found : scope.functionForClause? path with
  | none => rfl
  | some group =>
      have sameFirst : group.emptied.first.position = group.first.position := rfl
      have agree := agreeEmptied_sites shaped refers (mem_of_functionForClause found)
      simp only [Option.map_some, sameFirst, returnSites, judge_emptied group n agree]

end Tagging

end StyleAudit
