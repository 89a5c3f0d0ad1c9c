import StyleAudit.Proofs.Module.CallGraph
import StyleAudit.Proofs.Pipes.Scope
import StyleAudit.Proofs.Text.Distinct

/-!
# Pipes are transparent

Writing the pipes of a tree as calls changes neither which calls its modules
make, nor how they are resolved, nor where the clauses of a `with` land
(`unpiped_isTransparent`).
-/

namespace StyleAudit

variable {scope other : ModuleScope} {m n : Node}

/-! ## Call graphs -/

namespace ModuleScope.UnpipesTo

theorem keys (unpipes : scope.UnpipesTo other) :
    other.functions.map (·.key) = scope.functions.map (·.key) := by
  rw [unpipes.functions, List.map_map]
  rfl

theorem edges_perm (unpipes : scope.UnpipesTo other) :
    (CallGraph.ofScope other).edges.Perm (CallGraph.ofScope scope).edges := by
  have once : ∀ given : ModuleScope, (CallGraph.ofScope given).edges.Nodup :=
    fun _ => Text.nodup_eraseDups _
  rw [List.perm_ext_iff_of_nodup (once other) (once scope)]
  intro edge
  rw [CallGraph.mem_edges_ofScope, CallGraph.mem_edges_ofScope]
  simp only [unpipes.references.mem_iff]

theorem firstCaller?_eq (unpipes : scope.UnpipesTo other) (key : FunctionKey) :
    (CallGraph.ofScope other).firstCaller? key = (CallGraph.ofScope scope).firstCaller? key := by
  have sameOrder : (CallGraph.ofScope other).order = (CallGraph.ofScope scope).order :=
    unpipes.keys
  have sameCaller : ∀ caller, ((CallGraph.ofScope other).callers key).contains caller =
      ((CallGraph.ofScope scope).callers key).contains caller := by
    intro caller
    rw [Bool.eq_iff_iff, List.contains_iff_mem, List.contains_iff_mem,
      CallGraph.mem_callers_ofScope, CallGraph.mem_callers_ofScope]
    simp only [unpipes.references.mem_iff]
  simp only [CallGraph.firstCaller?, sameOrder, sameCaller]

/-! ## Targets -/

/-- A call has the same origin in the scope without pipes. -/
theorem callOrigin_eq (unpipes : scope.UnpipesTo other) (trusted : List String) (call : Node)
    (arity : Nat) : callOrigin trusted other call arity = callOrigin trusted scope call arity := by
  have sameResolved : ∀ key, (other.resolve? key).isSome = (scope.resolve? key).isSome := by
    intro key
    rw [ModuleScope.resolve?, unpipes.functions, resolveIn_mapClauses, Option.isSome_map]
    rfl
  have sameLocal : ∀ qualifier, other.isLocal qualifier = scope.isLocal qualifier := by
    intro qualifier
    rw [ModuleScope.isLocal, unpipes.name]
    rfl
  have sameUnknown : other.imports.any (·.importsUnknownNames) =
      scope.imports.any (·.importsUnknownNames) := by
    have blind : ∀ decls : List ImportDecl, decls.any (·.importsUnknownNames) =
        (decls.map ImportDecl.unplaced).any (·.importsUnknownNames) := by
      intro decls
      rw [List.any_map]
      rfl
    rw [blind other.imports, unpipes.imports, ← blind]
  simp only [callOrigin, unqualifiedOrigin, sameResolved, sameLocal, sameUnknown, unpipes.name,
    importedFrom?_of_unplaced unpipes.imports]

end ModuleScope.UnpipesTo

/-- What a rule reads of a target but for its nodes: the label, and whether the
call is local and resolved. -/
def Target.verdict (target : Target) : String × Bool × Bool :=
  (target.label, target.isLocal, target.isResolved)

theorem Target.verdict_ofExpression (unpipes : scope.UnpipesTo other) (trusted : List String)
    {pattern expression otherPattern otherExpression : Node}
    (same : otherExpression.callTarget?.map Node.bareCall =
      expression.callTarget?.map Node.bareCall) :
    (ofExpression trusted other otherPattern otherExpression).verdict =
      (ofExpression trusted scope pattern expression).verdict := by
  rw [ofExpression, ofExpression]
  cases called : expression.callTarget? with
  | none =>
      rw [called, Option.map_none, Option.map_eq_none_iff] at same
      rw [same]
      rfl
  | some made =>
      rw [called, Option.map_some, Option.map_eq_some_iff] at same
      obtain ⟨⟨otherCall, arity⟩, otherCalled, sameCall⟩ := same
      obtain ⟨_, rfl⟩ := Prod.mk.inj sameCall
      have sameBare : otherCall.bare = made.1.bare := (Prod.mk.inj sameCall).1
      -- A call is named and resolved by its attributes, not by its arguments.
      have sameName : otherCall.name = made.1.name := by
        change otherCall.bare.name = made.1.bare.name
        rw [sameBare]
      have sameOrigin : callOrigin trusted scope otherCall = callOrigin trusted scope made.1 := by
        change callOrigin trusted scope otherCall.bare = callOrigin trusted scope made.1.bare
        rw [sameBare]
      rw [otherCalled]
      simp only [verdict, label, unpipes.callOrigin_eq, sameOrigin, sameName]

/-- The clauses of a `with` land where they landed before. -/
theorem verdicts_unpiped (unpipes : scope.UnpipesTo other) (plain : n.HasPlainPipes)
    (isWith : n.kind = .withExpr) (trusted : List String) :
    (withTargets trusted other n.unpiped).map Target.verdict =
      (withTargets trusted scope n).map Target.verdict := by
  have clauses : (n.unpiped.childrenOfKind .withClause) =
      (n.childrenOfKind .withClause).map Node.unpiped := by
    rw [Node.unpiped_of_not_pipe (by rw [isWith]; decide), Node.childrenOfKind,
      Node.childrenOfKind, List.filter_map]
    congr 1
    refine List.filter_congr fun child member => ?_
    rw [Function.comp_apply,
      Node.beq_kind_unpiped (plain.of_child member) (by decide) (by decide)]
  rw [withTargets, withTargets, clauses, List.filterMap_map, List.map_filterMap,
    List.map_filterMap]
  refine List.filterMap_congr fun clause member => ?_
  obtain ⟨child, isClause⟩ := List.mem_filter.mp member
  have clausePlain := plain.of_child child
  have clauseUnpiped := Node.unpiped_of_not_pipe (n := clause)
    (by rw [beq_iff_eq.mp isClause]; decide)
  have parts : clause.unpiped.branchParts? =
      clause.branchParts?.map (Prod.map Node.unpiped Node.unpiped) := by
    rw [Node.branchParts?, Node.branchParts?, clauseUnpiped]
    rcases clause.children with _ | ⟨pattern, _ | ⟨expression, rest⟩⟩ <;> rfl
  rw [Function.comp_apply, parts]
  cases found : clause.branchParts? with
  | none => rfl
  | some pair =>
      obtain ⟨pattern, expression⟩ := pair
      have expressionPlain : expression.HasPlainPipes := by
        apply clausePlain.of_child
        rw [Node.branchParts?] at found
        split at found
        · rename_i children
          cases found
          rw [children]
          exact List.mem_cons_of_mem _ List.mem_cons_self
        · cases found
      exact congrArg some (Target.verdict_ofExpression unpipes trusted
        (Node.callTarget?_unpiped expressionPlain))

/-! ## Transparency -/

/-- The scope of a module and that of the module without pipes agree on all
calls. -/
structure ModuleScope.TransparentTo (scope other : ModuleScope) (m : Node) : Prop where
  keys : other.functions.map (·.key) = scope.functions.map (·.key)
  /-- The call sites are the same with their places, in some order. -/
  references : other.references.Perm scope.references
  edges : (CallGraph.ofScope other).edges.Perm (CallGraph.ofScope scope).edges
  order : (CallGraph.ofScope other).order = (CallGraph.ofScope scope).order
  firstCallers : ∀ key,
    (CallGraph.ofScope other).firstCaller? key = (CallGraph.ofScope scope).firstCaller? key
  /-- The `with` nodes correspond one to one, in their order. -/
  withs : m.unpiped.preorder.filter (·.kind == .withExpr) =
    (m.preorder.filter (·.kind == .withExpr)).map Node.unpiped
  targets : ∀ n ∈ m.preorder, n.kind = .withExpr → ∀ trusted,
    (withTargets trusted other n.unpiped).map Target.verdict =
      (withTargets trusted scope n).map Target.verdict

/-- Writing the pipes of an accepted tree as calls leaves no pipe. Each of its
modules, which correspond one to one, fails in the same way or has a scope that
agrees on all calls. -/
theorem unpiped_isTransparent {raw : Value} {file : Option String} {tree : Node}
    (accepted : Node.normalize raw file = .ok tree)
    (binary : ∀ pipe ∈ tree.preorder, pipe.kind = .pipe → pipe.children.length = 2)
    (isNested : String → Bool) :
    (∀ n ∈ tree.unpiped.preorder, n.kind ≠ .pipe) ∧
    tree.unpiped.preorder.filter (·.kind == .module) =
      (tree.preorder.filter (·.kind == .module)).map Node.unpiped ∧
    ∀ m ∈ tree.preorder, m.kind = .module →
      (∀ fault, ModuleScope.ofModule isNested m = .error fault ↔
        ModuleScope.ofModule isNested m.unpiped = .error fault) ∧
      ∀ scope, ModuleScope.ofModule isNested m = .ok scope →
        ∃ other, ModuleScope.ofModule isNested m.unpiped = .ok other ∧
          scope.TransparentTo other m := by
  have shaped := Node.isWellShaped_of_normalize accepted
  have plain := Node.hasPlainPipes_of_isWellShaped shaped binary
  refine ⟨Node.kind_ne_pipe_of_mem_unpiped plain,
    Node.filter_preorder_unpiped plain (by decide) (by decide), ?_⟩
  intro m member isModule
  have modulePlain := plain.of_mem member
  rcases ofModule_unpiped isNested modulePlain (shaped.of_mem member) isModule with
    ⟨fault, stopped, otherStopped⟩ | ⟨scope, other, indexed, otherIndexed, unpipes⟩
  · rw [stopped, otherStopped]
    exact ⟨fun _ => Iff.rfl, nofun⟩
  · rw [indexed, otherIndexed]
    refine ⟨fun _ => iff_of_false nofun nofun, ?_⟩
    intro _ same
    cases same
    refine ⟨other, rfl, ?_⟩
    exact
      { keys := unpipes.keys
        references := unpipes.references
        edges := unpipes.edges_perm
        order := unpipes.keys
        firstCallers := unpipes.firstCaller?_eq
        withs := Node.filter_preorder_unpiped modulePlain (by decide) (by decide)
        targets := fun n inside isWith trusted =>
          verdicts_unpiped unpipes (modulePlain.of_mem inside) isWith trusted }

/-- A dumped node with its attributes and children. -/
def dumpOf (kind : Kind) (attributes : List (String × Value)) (children : List Value) : Value :=
  .table [("kind", .text kind.name), ("attributes", .table attributes),
    ("children", .list children)]

/-- A dumped module with a `with` whose clause matches the end of two pipes,
into a function of the module and from there into an imported one. -/
def pipingModule : Value :=
  let input := dumpOf .var [("name", .text "x")] []
  let chained := dumpOf .pipe []
    [dumpOf .pipe [] [input, dumpOf .call [("name", .text "g")] []],
      dumpOf .call [("name", .text "h")] [input]]
  dumpOf .module [("name", .text "A")]
    [dumpOf .importDirective [("module", .text "B"), ("only", .list [.text "h/2"])] [],
      dumpOf .function [("name", .text "f"), ("visibility", .text "public")]
        [dumpOf .params [] [], dumpOf .block []
          [dumpOf .withExpr [] [dumpOf .withClause [] [input, chained], dumpOf .block [] []]]],
      dumpOf .function [("name", .text "g"), ("visibility", .text "private")]
        [dumpOf .params [] [input], dumpOf .block [] [input]]]

/-- The call of the outer pipe comes last in one tree and first in the other. -/
theorem unpiped_isTransparent_chained :
    ∃ tree scope other,
      Node.normalize pipingModule (some "lib/a.ex") = .ok tree ∧
      ModuleScope.ofModule (fun _ => false) tree = .ok scope ∧
      ModuleScope.ofModule (fun _ => false) tree.unpiped = .ok other ∧
      scope.references.map (fun ref => (ref.name, ref.arity, ref.module, ref.resolved)) =
        [("g", 1, none, some ⟨"g", 1⟩), ("h", 2, some "B", none)] ∧
      other.references.map (fun ref => (ref.name, ref.arity, ref.module, ref.resolved)) =
        [("h", 2, some "B", none), ("g", 1, none, some ⟨"g", 1⟩)] ∧
      scope.TransparentTo other tree := by
  have accepted : Node.normalize pipingModule (some "lib/a.ex") = .ok _ := rfl
  obtain ⟨_, _, transparent⟩ := unpiped_isTransparent accepted (by decide +kernel) fun _ => false
  obtain ⟨_, agrees⟩ := transparent _ (Node.mem_preorder_self _) rfl
  obtain ⟨other, indexed, isTransparent⟩ := agrees _ rfl
  refine ⟨_, _, other, accepted, rfl, indexed, by decide +kernel, ?_, isTransparent⟩
  cases indexed
  decide +kernel

end StyleAudit
