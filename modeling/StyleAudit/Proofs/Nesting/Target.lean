import StyleAudit.Proofs.Nesting.Scope
import StyleAudit.Proofs.Rule.Reading

/-!
# Functions and targets of emptied modules

What rules look up in a scope: the functions with their return sites, and the
targets of calls.
-/

namespace StyleAudit

open Node (AgreeEmptied)

variable {m n : Node} {scope : ModuleScope} {group : FunctionGroup} {trusted : List String}

/-! ## Functions -/

theorem ModuleScope.resolve?_emptied (scope : ModuleScope) (key : FunctionKey) :
    scope.emptied.resolve? key = (scope.resolve? key).map FunctionGroup.emptied :=
  resolveIn_map_emptied scope.functions key

theorem ModuleScope.function?_emptied (scope : ModuleScope) (key : FunctionKey) :
    scope.emptied.function? key = (scope.function? key).map FunctionGroup.emptied :=
  List.find?_map

theorem ModuleScope.functionForClause?_emptied (scope : ModuleScope) (path : NodePath) :
    scope.emptied.functionForClause? path =
      (scope.functionForClause? path).map FunctionGroup.emptied := by
  match path with
  | [] => rfl
  | [position] =>
      simp only [functionForClause?, emptied, List.find?_map]
      congr 2
      funext other
      simp [List.any_map, Function.comp_def, Clause.emptied]
  | _ :: _ :: _ => rfl

theorem graph_emptied (scope : ModuleScope) :
    CallGraph.ofScope scope.emptied = CallGraph.ofScope scope := by
  simp [CallGraph.ofScope, ModuleScope.emptied, Function.comp_def]

theorem bodies_emptied (refers : scope.RefersTo m) (member : group ∈ scope.functions) :
    group.emptied.bodies = group.bodies.map Node.emptied := by
  rw [FunctionGroup.bodies, FunctionGroup.bodies, FunctionGroup.clauses_emptied, List.filterMap_map,
    List.map_filterMap]
  refine List.filterMap_congr fun clause listed => ?_
  obtain ⟨_, isFunction⟩ := refers.clauses group member clause listed
  obtain ⟨position, kind, span, attributes, children⟩ := clause
  cases isFunction
  match children with
  | [] => rfl
  | [only] => rfl
  | params :: body :: rest => rfl

/-- The return sites of a function agree with those of the emptied one. -/
theorem agreeEmptied_sites (shaped : m.IsWellShaped) (refers : scope.RefersTo m)
    (member : group ∈ scope.functions) :
    AgreeEmptied (group.emptied.bodies.flatMap (·.terminals))
      (group.bodies.flatMap (·.terminals)) := by
  rw [bodies_emptied refers member]
  refine AgreeEmptied.flatMap_map_emptied fun body listed => ?_
  exact ((readBodies_eq shaped refers member).2 body listed).agreeEmptied_terminals

/-! ## Targets -/

def Target.emptied (target : Target) : Target :=
  { target with
    pattern := target.pattern.emptied
    expression := target.expression.emptied
    call := target.call.map Node.emptied }

theorem callOrigin_emptied (scope : ModuleScope) (call : Node) (arity : Nat) :
    callOrigin trusted scope.emptied call.emptied arity = callOrigin trusted scope call arity := by
  have sameLocal : scope.emptied.isLocal = scope.isLocal := rfl
  have sameOrigin : unqualifiedOrigin trusted scope.emptied = unqualifiedOrigin trusted scope := rfl
  have sameName : scope.emptied.name = scope.name := rfl
  simp [callOrigin, sameLocal, sameOrigin, sameName, ModuleScope.resolve?_emptied]

theorem Target.ofExpression_emptied (scope : ModuleScope) (pattern : Node) {expression : Node}
    (shaped : expression.IsWellShaped) :
    ofExpression trusted scope.emptied pattern.emptied expression.emptied =
      (ofExpression trusted scope pattern expression).emptied := by
  rw [ofExpression, ofExpression, Node.callTarget?_emptied shaped]
  cases expression.callTarget? with
  | none => rfl
  | some called => simp [Target.emptied, callOrigin_emptied]

theorem Target.label_emptied (target : Target) : target.emptied.label = target.label := by
  rw [label, label]
  cases called : target.call <;> simp [emptied, called]

theorem Target.isForeign_emptied (target : Target) :
    target.emptied.isForeign = target.isForeign := by
  simp [isForeign, emptied]

theorem childrenOfKind_emptied {kind : Kind} (byParts : n.kind.readsByParts = true) :
    n.emptied.childrenOfKind kind = (n.childrenOfKind kind).map Node.emptied := by
  simp [Node.childrenOfKind, Node.children_emptied_of_readsByParts byParts,
    List.filter_map, Function.comp_def]

theorem childOfKind?_emptied {kind : Kind} (byParts : n.kind.readsByParts = true) :
    n.emptied.childOfKind? kind = (n.childOfKind? kind).map Node.emptied := by
  simp only [Node.childOfKind?, Node.children_emptied_of_readsByParts byParts, List.find?_map,
    Function.comp_def, Node.kind_emptied]

theorem withTargets_emptied (scope : ModuleScope) (shaped : n.IsWellShaped)
    (isWith : n.kind = .withExpr) :
    withTargets trusted scope.emptied n.emptied =
      (withTargets trusted scope n).map Target.emptied := by
  rw [withTargets, withTargets,
    childrenOfKind_emptied (by rw [isWith]; rfl), List.filterMap_map, List.map_filterMap]
  refine List.filterMap_congr fun clause member => ?_
  obtain ⟨isChild, isClause⟩ := List.mem_filter.mp member
  have clauseShaped := shaped.of_child isChild
  have clauseKind : clause.kind = .withClause := beq_iff_eq.mp isClause
  obtain ⟨pattern, expression, rest, children, _, expressionShaped⟩ :=
    clauseShaped.exists_pair (by rw [clauseKind]; rfl)
  have emptiedChildren : clause.emptied.children =
      pattern.emptied :: expression.emptied :: rest.map Node.emptied := by
    rw [Node.children_emptied_of_readsByParts (by rw [clauseKind]; rfl), children]
    rfl
  simp [Node.branchParts?, children, emptiedChildren,
    Target.ofExpression_emptied scope pattern expressionShaped]

theorem caseTarget?_emptied (scope : ModuleScope) (shaped : n.IsWellShaped)
    (isCase : n.kind = .caseExpr) :
    caseTarget? trusted scope.emptied n.emptied =
      (caseTarget? trusted scope n).map Target.emptied := by
  obtain ⟨subject, rest, children, subjectShaped⟩ := shaped.exists_first (by rw [isCase]; decide)
  rw [caseTarget?, caseTarget?, Node.children_emptied_of_readsByParts (by rw [isCase]; rfl),
    children]
  simp [Target.ofExpression_emptied scope subject subjectShaped]

end StyleAudit
