import StyleAudit.Proofs.Module.ClauseMap
import StyleAudit.Proofs.Module.Scope
import StyleAudit.Proofs.Pipes.Unpiped

/-!
# Scopes of modules without pipes

A module is indexed like the one with its pipes written as calls
(`ofModule_unpiped`): the functions have the same keys, the imports are those at
other paths, and the call sites are the same up to their order.
-/

namespace StyleAudit

open Outcome (mapBoth)

variable {n m form : Node}

/-! ## Directives -/

/-- The directive without its place and without what stands below it. -/
def Directive.unplaced (directive : Directive) : Directive :=
  ⟨[], directive.inFunction, directive.node.bare⟩

def ImportDecl.unplaced (decl : ImportDecl) : ImportDecl :=
  { decl with path := [] }

/-- The directives of a tree wherever it stands. -/
def Node.directives (inFunction : Bool) (n : Node) : List Directive :=
  (directivesBelow [] inFunction n).map Directive.unplaced

theorem directivesAmong_unplaced {ns : List Node} {path : NodePath} {inFunction : Bool}
    (each : ∀ n ∈ ns, ∀ path, (directivesBelow path inFunction n).map Directive.unplaced =
      n.directives inFunction) (position : Nat) :
    (directivesAmong path inFunction position ns).map Directive.unplaced =
      ns.flatMap (Node.directives inFunction) := by
  induction ns generalizing position with
  | nil => rfl
  | cons n rest inductionHypothesis =>
      rw [directivesAmong, List.map_append, List.flatMap_cons, each n List.mem_cons_self,
        inductionHypothesis fun other member => each other (List.mem_cons_of_mem n member)]

theorem directivesBelow_eq (path : NodePath) (inFunction : Bool) (n : Node) :
    directivesBelow path inFunction n =
      if n.kind = .module then []
      else
        (if n.kind = .importDirective ∨ n.kind = .useDirective then [⟨path, inFunction, n⟩]
          else []) ++
        directivesAmong path (inFunction || n.kind == .function) 0 n.children := by
  obtain ⟨kind, span, attributes, children⟩ := n
  rw [directivesBelow]

/-- But for their places, the directives below a node do not depend on the path to it. -/
theorem directivesBelow_unplaced (path : NodePath) (inFunction : Bool) (n : Node) :
    (directivesBelow path inFunction n).map Directive.unplaced = n.directives inFunction := by
  induction n using Node.childInduction generalizing path inFunction with
  | step n inductionHypothesis =>
      have below : ∀ path position inFunction,
          (directivesAmong path inFunction position n.children).map Directive.unplaced =
            n.children.flatMap (Node.directives inFunction) := by
        intro path position inFunction
        apply directivesAmong_unplaced
        intro child member path
        exact inductionHypothesis child member path inFunction
      rw [Node.directives, directivesBelow_eq, directivesBelow_eq]
      split
      · rfl
      · rw [List.map_append, List.map_append, below, below]
        split <;> rfl

theorem Node.directives_eq (inFunction : Bool) (n : Node) :
    n.directives inFunction =
      if n.kind = .module then []
      else
        (if n.kind = .importDirective ∨ n.kind = .useDirective then [⟨[], inFunction, n.bare⟩]
          else []) ++
        n.children.flatMap (Node.directives (inFunction || n.kind == .function)) := by
  rw [directives, directivesBelow_eq]
  split
  · rfl
  · rw [List.map_append,
      directivesAmong_unplaced fun child _ path => directivesBelow_unplaced path _ child]
    split <;> rfl

/-- Pipes and calls are no directives, but may hold some. -/
theorem Node.directives_of_expression (isExpression : n.kind = .pipe ∨ n.kind = .call)
    (inFunction : Bool) :
    n.directives inFunction = n.children.flatMap (directives inFunction) := by
  have noFunction : (n.kind == .function) = false := by
    rcases isExpression with isPipe | isCall
    · rw [isPipe]
      rfl
    · rw [isCall]
      rfl
  rw [directives_eq, noFunction, Bool.or_false]
  rcases isExpression with isPipe | isCall
  · simp [isPipe]
  · simp [isCall]

/-- Directives are neither pipes nor calls, and a pipe holds the same ones as
its call with the input as an argument. -/
theorem Node.directives_unpiped (plain : n.HasPlainPipes) (inFunction : Bool) :
    n.unpiped.directives inFunction = n.directives inFunction := by
  have among : ∀ (ns : List Node) (inFunction : Bool),
      (∀ child ∈ ns, ∀ inFunction, child.unpiped.directives inFunction =
        child.directives inFunction) →
      (ns.map unpiped).flatMap (directives inFunction) = ns.flatMap (directives inFunction) := by
    intro ns inFunction each
    rw [List.flatMap_map]
    exact List.flatMap_congr fun child member => each child member inFunction
  induction n, plain using HasPlainPipes.induction generalizing inFunction with
  | other n plain isOther inductionHypothesis =>
      rw [unpiped_of_not_pipe isOther, directives_eq, directives_eq inFunction n]
      simp only [among _ _ inductionHypothesis]
      rfl
  | pipe n input call _ _ _ isPipe children isCall inputSame argumentsSame =>
      have unpipedCall : n.unpiped.kind = .call := by
        rw [unpiped_of_pipe isPipe children isCall]
        exact isCall
      rw [directives_of_expression (Or.inr unpipedCall), directives_of_expression (Or.inl isPipe),
        unpiped_of_pipe isPipe children isCall, children]
      simp only [List.flatMap_cons, List.flatMap_nil, List.append_nil]
      rw [inputSame, among _ _ argumentsSame, directives_of_expression (Or.inr isCall)]

theorem ImportDecl.ofDirective_unplaced (directive : Directive) :
    ofDirective directive.unplaced = mapBoth id unplaced (ofDirective directive) := by
  rw [ofDirective_eq_map directive.unplaced, ofDirective_eq_map directive]
  change Except.map _ (if (importSelector? (directive.node.attr "only")).isSome then _
    else importRestriction (directive.node.attr "only") directive.node.span) = _
  generalize (if (importSelector? (directive.node.attr "only")).isSome then Except.ok (some [])
    else importRestriction (directive.node.attr "only") directive.node.span) = restriction
  cases restriction <;> rfl

/-- Imports are read alike wherever they stand. -/
theorem mapM_ofDirective_unplaced {directives others : List Directive}
    (same : others.map Directive.unplaced = directives.map Directive.unplaced) :
    mapBoth id (List.map ImportDecl.unplaced) (others.mapM ImportDecl.ofDirective) =
      mapBoth id (List.map ImportDecl.unplaced) (directives.mapM ImportDecl.ofDirective) := by
  have blind : ∀ some : List Directive,
      (some.map Directive.unplaced).mapM ImportDecl.ofDirective =
        mapBoth id (List.map ImportDecl.unplaced) (some.mapM ImportDecl.ofDirective) :=
    Outcome.mapM_mapBoth ImportDecl.ofDirective_unplaced
  rw [← blind, ← blind, same]

/-- The imports of a module wherever they stand. -/
theorem importsOf_unplaced (m : Node) :
    (importsOf m).map Directive.unplaced =
      (m.children.flatMap (Node.directives false)).filter (·.node.kind == .importDirective) := by
  have among : (directivesAmong [] false 0 m.children).map Directive.unplaced =
      m.children.flatMap (Node.directives false) :=
    directivesAmong_unplaced (fun n _ path => directivesBelow_unplaced path false n) 0
  rw [← among, List.filter_map]
  rfl

theorem importsOf_unpiped (plain : m.HasPlainPipes) (isModule : m.kind = .module) :
    (importsOf m.unpiped).map Directive.unplaced = (importsOf m).map Directive.unplaced := by
  rw [importsOf_unplaced, importsOf_unplaced,
    Node.unpiped_of_not_pipe (by rw [isModule]; decide), List.flatMap_map]
  congr 1
  exact List.flatMap_congr fun child member =>
    Node.directives_unpiped (plain.of_child member) false

/-! ## Functions -/

/-- The clause with its pipes written as calls. -/
def Clause.unpiped (clause : Clause) : Clause :=
  { clause with node := clause.node.unpiped }

/-- Writing pipes as nested calls keeps what clauses are grouped by. -/
theorem Clause.staysGrouped_unpiped {clause : Clause} (plain : clause.node.HasPlainPipes)
    (shaped : clause.node.IsWellShaped) (isFunction : clause.node.kind = .function) :
    clause.StaysGrouped unpiped id := by
  have isOther : clause.node.kind ≠ .pipe := by
    rw [isFunction]
    decide
  obtain ⟨params, body, rest, children, _, _⟩ := shaped.exists_pair (by rw [isFunction]; rfl)
  have isParams := shaped.first_kind (by rw [isFunction]; rfl) children
  have paramsOther : params.kind ≠ .pipe := by
    rw [isParams]
    decide
  have sameNode := Node.unpiped_of_not_pipe isOther
  have sameParams : clause.unpiped.params = clause.params.map Node.unpiped := by
    rw [Clause.params, Clause.params, unpiped, sameNode, children, List.map_cons,
      Node.unpiped_of_not_pipe paramsOther]
  have sameDefaults : (clause.params.map Node.unpiped).countP (·.kind == .default) =
      clause.params.countP (·.kind == .default) := by
    rw [List.countP_map]
    refine List.countP_congr fun param member => ?_
    have paramPlain : param.HasPlainPipes := by
      rw [Clause.params, children] at member
      exact (plain.of_child (by rw [children]; exact List.mem_cons_self)).of_child member
    rw [Function.comp_apply, Node.beq_kind_unpiped paramPlain (by decide) (by decide)]
  refine ⟨?_, ?_, ?_, ?_⟩
  · rw [key, key, sameParams, List.length_map, unpiped, sameNode]
    rfl
  · rw [minArity, minArity, sameParams, sameDefaults, List.length_map]
  · rw [visibility, visibility, unpiped, sameNode]
    rfl
  · rw [unpiped, sameNode]
    rfl

theorem clausesOf_map_unpiped {forms : List Node} (plain : ∀ form ∈ forms, form.HasPlainPipes) :
    clausesOf (forms.map Node.unpiped) = (clausesOf forms).map Clause.unpiped := by
  rw [clausesOf, clausesOf, List.zipIdx_map, List.filter_map, List.map_map, List.map_map]
  have sameFilter : (forms.zipIdx.filter
      ((fun indexed : Node × Nat => indexed.1.kind == .function) ∘ Prod.map Node.unpiped id)) =
      forms.zipIdx.filter fun indexed => indexed.1.kind == .function := by
    refine List.filter_congr fun indexed member => ?_
    have formPlain := plain indexed.1 (List.fst_mem_of_mem_zipIdx member)
    rw [Function.comp_apply, Prod.map_fst,
      Node.beq_kind_unpiped formPlain (by decide) (by decide)]
  exact congrArg _ sameFilter

theorem groupClauses_unpiped (plain : m.HasPlainPipes) (shaped : m.IsWellShaped) :
    groupClauses (clausesOf (m.children.map Node.unpiped)) =
      mapBoth id (List.map (·.mapClauses Clause.unpiped)) (groupClauses (clausesOf m.children)) := by
  rw [clausesOf_map_unpiped fun form member => plain.of_child member]
  apply groupClauses_map
  intro clause member
  obtain ⟨here, isFunction⟩ := mem_clausesOf_iff.mp member
  have formMember := List.mem_of_getElem? here
  exact Clause.staysGrouped_unpiped (plain.of_child formMember) (shaped.of_child formMember)
    isFunction

/-! ## Call sites -/

section Calls

variable {functions : List FunctionGroup} {imports others : List ImportDecl}
  {moduleName : String}

theorem importedFrom?_of_unplaced (same : others.map ImportDecl.unplaced =
    imports.map ImportDecl.unplaced) (key : FunctionKey) :
    importedFrom? others key = importedFrom? imports key := by
  have blind : ∀ decls : List ImportDecl,
      importedFrom? decls key = importedFrom? (decls.map ImportDecl.unplaced) key := by
    intro decls
    rw [importedFrom?, importedFrom?, List.find?_map, Option.map_map]
    rfl
  rw [blind others, same, ← blind]

theorem ofCall_unpiped (same : others.map ImportDecl.unplaced = imports.map ImportDecl.unplaced)
    (caller : Option FunctionKey) (call : Node) (arity : Nat) :
    CallRef.ofCall moduleName (functions.map (·.mapClauses Clause.unpiped)) others caller call
        arity =
      CallRef.ofCall moduleName functions imports caller call arity := by
  simp only [CallRef.ofCall, resolveIn_mapClauses, importedFrom?_of_unplaced same]
  split
  · rw [Option.isNone_map, Option.map_map]
    rfl
  · rfl

/-- A form whose pipes are written as nested calls has the same call sites, though in
another order. -/
theorem formReferences_unpiped
    (same : others.map ImportDecl.unplaced = imports.map ImportDecl.unplaced)
    (caller : Option FunctionKey) (plain : form.HasPlainPipes) (noModule : form.kind ≠ .module) :
    (formReferences moduleName (functions.map (·.mapClauses Clause.unpiped)) others caller
        form.unpiped).Perm
      (formReferences moduleName functions imports caller form) := by
  have blind : ∀ calls : List (Node × Nat),
      (calls.map fun called =>
        CallRef.ofCall moduleName functions imports caller called.1 called.2) =
      (calls.map Node.bareCall).map fun called =>
        CallRef.ofCall moduleName functions imports caller called.1 called.2 := by
    intro calls
    rw [List.map_map]
    rfl
  simp only [formReferences, ofCall_unpiped same]
  rw [blind form.unpiped.calls, blind form.calls]
  exact (Node.calls_unpiped plain noModule).map _

/-- The call sites of a module are the same up to their order. -/
theorem moduleReferences_unpiped
    (same : others.map ImportDecl.unplaced = imports.map ImportDecl.unplaced)
    (plain : m.HasPlainPipes) (grouped : groupClauses (clausesOf m.children) = .ok functions) :
    (moduleReferences moduleName (functions.map (·.mapClauses Clause.unpiped)) others
        (m.children.map Node.unpiped)).Perm
      (moduleReferences moduleName functions imports m.children) := by
  rw [moduleReferences, moduleReferences]
  apply List.Perm.append
  · rw [List.flatMap_map]
    refine List.Perm.flatMap_left functions fun group member => ?_
    rw [FunctionGroup.clauses_mapClauses, List.flatMap_map]
    refine List.Perm.flatMap_left _ fun clause listed => ?_
    obtain ⟨here, isFunction⟩ :=
      mem_clausesOf_iff.mp (clauses_of_groupClauses grouped member listed)
    exact formReferences_unpiped same (some group.key)
      (plain.of_child (List.mem_of_getElem? here)) (by rw [isFunction]; decide)
  · have sameForms : (m.children.map Node.unpiped).filter (fun form =>
          form.kind != .function && form.kind != .module) =
        (m.children.filter fun form => form.kind != .function && form.kind != .module).map
          Node.unpiped := by
      rw [List.filter_map]
      congr 1
      refine List.filter_congr fun form member => ?_
      have formPlain := plain.of_child member
      rw [Function.comp_apply, bne, bne, Node.beq_kind_unpiped formPlain (by decide) (by decide),
        Node.beq_kind_unpiped formPlain (by decide) (by decide)]
      rfl
    rw [sameForms, List.flatMap_map]
    refine List.Perm.flatMap_left _ fun form member => ?_
    obtain ⟨isForm, kept⟩ := List.mem_filter.mp member
    rw [Bool.and_eq_true, bne_iff_ne, bne_iff_ne] at kept
    exact formReferences_unpiped same none (plain.of_child isForm) kept.2

end Calls

/-! ## Scopes -/

/-- Two scopes in which calls are resolved alike. The functions of the second
one have clauses whose pipes are written as calls, its imports stand at other
paths and its call sites may be listed in another order. -/
structure ModuleScope.UnpipesTo (scope other : ModuleScope) : Prop where
  name : other.name = scope.name
  functions : other.functions = scope.functions.map (·.mapClauses Clause.unpiped)
  imports : other.imports.map ImportDecl.unplaced = scope.imports.map ImportDecl.unplaced
  references : other.references.Perm scope.references

/-- A module and the one without pipes are at fault in the same way, or have
scopes that resolve calls alike. -/
theorem ofModule_unpiped (isNested : String → Bool) (plain : m.HasPlainPipes)
    (shaped : m.IsWellShaped) (isModule : m.kind = .module) :
    (∃ fault, ModuleScope.ofModule isNested m = .error fault ∧
      ModuleScope.ofModule isNested m.unpiped = .error fault) ∨
    ∃ scope other, ModuleScope.ofModule isNested m = .ok scope ∧
      ModuleScope.ofModule isNested m.unpiped = .ok other ∧ scope.UnpipesTo other := by
  have isUnpiped := Node.unpiped_of_not_pipe (n := m) (by rw [isModule]; decide)
  have stillModule : m.unpiped.kind = .module := by
    rw [isUnpiped]
    exact isModule
  have sameChildren : m.unpiped.children = m.children.map Node.unpiped := by rw [isUnpiped]
  have sameImports := mapM_ofDirective_unplaced (importsOf_unpiped plain isModule)
  rw [ofModule_eq_ofParts isNested isModule, ofModule_eq_ofParts isNested stillModule,
    sameChildren, groupClauses_unpiped plain shaped]
  cases grouped : groupClauses (clausesOf m.children) with
  | error fault => exact Or.inl ⟨.confined fault, rfl, rfl⟩
  | ok functions =>
      cases imported : (importsOf m).mapM ImportDecl.ofDirective with
      | error fault =>
          rw [imported] at sameImports
          cases importedUnpiped : (importsOf m.unpiped).mapM ImportDecl.ofDirective with
          | error other =>
              rw [importedUnpiped] at sameImports
              cases sameImports
              exact Or.inl ⟨fault, rfl, rfl⟩
          | ok decls =>
              rw [importedUnpiped] at sameImports
              cases sameImports
      | ok imports =>
          rw [imported] at sameImports
          cases importedUnpiped : (importsOf m.unpiped).mapM ImportDecl.ofDirective with
          | error other =>
              rw [importedUnpiped] at sameImports
              cases sameImports
          | ok decls =>
              rw [importedUnpiped] at sameImports
              have unplaced := Except.ok.inj sameImports
              refine Or.inr ⟨_, _, rfl, rfl, ?_⟩
              have sameName : m.unpiped.name = m.name := by
                rw [isUnpiped]
                rfl
              refine ⟨sameName, rfl, unplaced, ?_⟩
              rw [ModuleScope.ofParts, ModuleScope.ofParts, sameName, sameChildren]
              exact moduleReferences_unpiped unplaced plain grouped

end StyleAudit
