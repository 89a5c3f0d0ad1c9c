import StyleAudit.Proofs.Module.ClauseMap
import StyleAudit.Proofs.Module.Scope
import StyleAudit.Proofs.Nesting.Expression

/-!
# Scopes of emptied modules

The scope of a module is built from its forms without a look inside nested
modules: `ofModule_emptiedBelow`. Only the clauses of functions keep nodes, so
that the scope of the emptied module is the same one with emptied clauses.
-/

namespace StyleAudit

open Node (AgreeEmptied)

/-- The module with its forms emptied. -/
def Node.emptiedBelow (m : Node) : Node :=
  { m with children := m.children.map Node.emptied }

def Clause.emptied (clause : Clause) : Clause :=
  { clause with node := clause.node.emptied }

def FunctionGroup.emptied (group : FunctionGroup) : FunctionGroup :=
  { group with
    first := group.first.emptied
    others := group.others.map Clause.emptied }

def ModuleScope.emptied (scope : ModuleScope) : ModuleScope :=
  { scope with functions := scope.functions.map FunctionGroup.emptied }

def Directive.emptied (directive : Directive) : Directive :=
  { directive with node := directive.node.emptied }

@[simp]
theorem FunctionGroup.key_emptied (group : FunctionGroup) : group.emptied.key = group.key :=
  rfl

@[simp]
theorem FunctionGroup.clauses_emptied (group : FunctionGroup) :
    group.emptied.clauses = group.clauses.map Clause.emptied :=
  rfl

/-! ## Functions -/

section Functions

variable {clause : Clause}

/-- The parameters of a function are kept. -/
theorem Clause.params_emptied (isFunction : clause.node.kind = .function) :
    clause.emptied.params = clause.params := by
  obtain ⟨position, kind, span, attributes, children⟩ := clause
  cases isFunction
  cases children with
  | nil => rfl
  | cons params rest => rfl

theorem Clause.key_emptied (isFunction : clause.node.kind = .function) :
    clause.emptied.key = clause.key := by
  rw [key, key, params_emptied isFunction]
  simp [emptied]

theorem Clause.visibility_emptied (clause : Clause) :
    clause.emptied.visibility = clause.visibility := by
  simp [visibility, emptied]

theorem Clause.staysGrouped_emptied (isFunction : clause.node.kind = .function) :
    clause.StaysGrouped emptied id := by
  have sameParams := params_emptied isFunction
  refine ⟨key_emptied isFunction, ?_, visibility_emptied clause, ?_⟩
  · rw [minArity, minArity, sameParams]
  · simp [emptied]

theorem clausesOf_map_emptied (forms : List Node) :
    clausesOf (forms.map Node.emptied) = (clausesOf forms).map Clause.emptied := by
  simp [clausesOf, List.zipIdx_map, List.filter_map, Function.comp_def, Clause.emptied]

theorem groupClauses_emptied (forms : List Node) :
    groupClauses (clausesOf (forms.map Node.emptied)) =
      (groupClauses (clausesOf forms)).map (List.map FunctionGroup.emptied) := by
  have stay : ∀ clause ∈ clausesOf forms, clause.StaysGrouped Clause.emptied id :=
    fun clause member => Clause.staysGrouped_emptied (mem_clausesOf_iff.mp member).2
  rw [clausesOf_map_emptied, groupClauses_map stay]
  cases groupClauses (clausesOf forms) <;> rfl

end Functions

/-! ## Directives -/

theorem directivesAmong_emptiedAfter {ns : List Node} {path : NodePath} {inFunction : Bool}
    (each : ∀ n ∈ ns, ∀ path, (directivesBelow path inFunction n.emptied).map Directive.emptied =
      (directivesBelow path inFunction n).map Directive.emptied)
    (kept position : Nat) :
    (directivesAmong path inFunction position (Node.emptiedAfter kept ns)).map Directive.emptied =
      (directivesAmong path inFunction position ns).map Directive.emptied := by
  induction ns generalizing kept position with
  | nil => simp
  | cons n rest inductionHypothesis =>
      have later := inductionHypothesis fun other member =>
        each other (List.mem_cons_of_mem n member)
      cases kept with
      | zero =>
          rw [Node.emptiedAfter, directivesAmong, directivesAmong, List.map_append, List.map_append,
            each n List.mem_cons_self, later]
      | succ kept =>
          rw [Node.emptiedAfter_succ, directivesAmong, directivesAmong, List.map_append,
            List.map_append, later]

/-- The directives of a module stand outside its nested modules. -/
theorem directivesBelow_emptied (path : NodePath) (inFunction : Bool) (n : Node) :
    (directivesBelow path inFunction n.emptied).map Directive.emptied =
      (directivesBelow path inFunction n).map Directive.emptied := by
  induction n using Node.childInduction generalizing path inFunction with
  | step n inductionHypothesis =>
      obtain ⟨kind, span, attributes, children⟩ := n
      by_cases isModule : kind = .module
      · simp [directivesBelow, Node.emptied, isModule]
      · have twice := Node.emptied_emptied ⟨kind, span, attributes, children⟩
        have here : Node.emptied ⟨kind, span, attributes, children⟩ =
            ⟨kind, span, attributes,
              Node.emptiedAfter (Node.readWhole ⟨kind, span, attributes, children⟩) children⟩ := by
          rw [Node.emptied, if_neg isModule]
        rw [here] at twice ⊢
        rw [directivesBelow, directivesBelow, if_neg isModule, if_neg isModule, List.map_append,
          List.map_append, directivesAmong_emptiedAfter fun child member path =>
            inductionHypothesis child member path _]
        congr 1
        split
        · simp [Directive.emptied, twice, here]
        · rfl

theorem directivesAmong_map_emptied (path : NodePath) (inFunction : Bool) (position : Nat)
    (ns : List Node) :
    (directivesAmong path inFunction position (ns.map Node.emptied)).map Directive.emptied =
      (directivesAmong path inFunction position ns).map Directive.emptied := by
  rw [← Node.emptiedAfter_zero]
  exact directivesAmong_emptiedAfter
    (fun n _ path => directivesBelow_emptied path inFunction n) 0 position

theorem ImportDecl.ofDirective_emptied (directive : Directive) :
    ofDirective directive.emptied = ofDirective directive := by
  simp [ofDirective, Directive.emptied]

theorem mapM_ofDirective_congr {directives others : List Directive}
    (same : directives.map Directive.emptied = others.map Directive.emptied) :
    directives.mapM ImportDecl.ofDirective = others.mapM ImportDecl.ofDirective := by
  have blind : ∀ ds : List Directive, ds.mapM ImportDecl.ofDirective =
      (ds.map Directive.emptied).mapM ImportDecl.ofDirective := by
    intro ds
    have sameRead : ImportDecl.ofDirective ∘ Directive.emptied = ImportDecl.ofDirective :=
      funext ImportDecl.ofDirective_emptied
    rw [List.mapM_map, sameRead]
  rw [blind, same, ← blind]

/-- Directives of a kind agree when all agree. -/
theorem filter_kind_congr {directives others : List Directive} (kind : Kind)
    (same : directives.map Directive.emptied = others.map Directive.emptied) :
    (directives.filter (·.node.kind == kind)).map Directive.emptied =
      (others.filter (·.node.kind == kind)).map Directive.emptied := by
  have blind : ∀ ds : List Directive, (ds.filter (·.node.kind == kind)).map Directive.emptied =
      (ds.map Directive.emptied).filter (·.node.kind == kind) := by
    intro ds
    simp [List.filter_map, Function.comp_def, Directive.emptied]
  rw [blind, same, ← blind]

/-! ## Attributes -/

theorem isDocumentation_emptied {form : Node} (isAttribute : form.kind = .moduleAttribute) :
    isDocumentation form.emptied = isDocumentation form := by
  rw [isDocumentation, isDocumentation,
    Node.children_emptied_of_readsByParts (by rw [isAttribute]; rfl)]
  cases form.children with
  | nil => rfl
  | cons value rest => simp

theorem hasDocumentation_map_emptied (forms : List Node) :
    hasDocumentation (forms.map Node.emptied) = hasDocumentation forms := by
  have sameForms : ((forms.map Node.emptied).filter fun form =>
        form.kind == .moduleAttribute && form.name == "moduledoc") =
      (forms.filter fun form =>
        form.kind == .moduleAttribute && form.name == "moduledoc").map Node.emptied := by
    simp [List.filter_map, Function.comp_def]
  rw [hasDocumentation, hasDocumentation, sameForms, List.getLast?_map]
  cases last : (forms.filter fun form =>
      form.kind == .moduleAttribute && form.name == "moduledoc").getLast? with
  | none => rfl
  | some form =>
      have kept := (List.mem_filter.mp (List.mem_of_getLast? last)).2
      rw [Bool.and_eq_true, beq_iff_eq] at kept
      exact isDocumentation_emptied kept.1

theorem firstAttributes_map_emptied (forms : List Node) :
    firstAttributes (forms.map Node.emptied) = firstAttributes forms := by
  simp only [firstAttributes, List.filter_map, List.foldl_map, Function.comp_def,
    Node.kind_emptied, Node.span_emptied]
  simp only [Node.name_emptied]

/-! ## Call sites -/

section Calls

variable {functions : List FunctionGroup} {imports : List ImportDecl} {moduleName : String}

theorem resolveIn_map_emptied (functions : List FunctionGroup) (key : FunctionKey) :
    resolveIn (functions.map FunctionGroup.emptied) key =
      (resolveIn functions key).map FunctionGroup.emptied :=
  resolveIn_mapClauses functions key

theorem ofCall_map_emptied (functions : List FunctionGroup) (caller : Option FunctionKey)
    (call : Node) (arity : Nat) :
    CallRef.ofCall moduleName (functions.map FunctionGroup.emptied) imports caller call arity =
      CallRef.ofCall moduleName functions imports caller call arity := by
  simp only [CallRef.ofCall, resolveIn_map_emptied]
  split <;> simp [Function.comp_def]

theorem ofCall_emptied (caller : Option FunctionKey) (call : Node) (arity : Nat) :
    CallRef.ofCall moduleName functions imports caller call.emptied arity =
      CallRef.ofCall moduleName functions imports caller call arity := by
  simp [CallRef.ofCall]

theorem formReferences_emptied (caller : Option FunctionKey) {form : Node}
    (noModule : form.kind ≠ .module) :
    formReferences moduleName (functions.map FunctionGroup.emptied) imports caller form.emptied =
      formReferences moduleName functions imports caller form := by
  have blind : ∀ calls : List (Node × Nat),
      (calls.map fun called =>
        CallRef.ofCall moduleName functions imports caller called.1 called.2) =
      (Node.emptiedCalls calls).map fun called =>
        CallRef.ofCall moduleName functions imports caller called.1 called.2 := by
    intro calls
    rw [Node.emptiedCalls, List.map_map]
    refine List.map_congr_left fun called _ => ?_
    exact (ofCall_emptied caller called.1 called.2).symm
  simp only [formReferences, ofCall_map_emptied]
  refine (blind form.emptied.calls).trans ?_
  rw [Node.emptiedCalls_calls form noModule]
  exact (blind form.calls).symm

theorem moduleReferences_emptied (moduleName : String) (imports : List ImportDecl)
    (forms : List Node)
    (clausesFunctions : ∀ group ∈ functions, ∀ clause ∈ group.clauses,
      clause.node.kind = .function) :
    moduleReferences moduleName (functions.map FunctionGroup.emptied) imports
        (forms.map Node.emptied) =
      moduleReferences moduleName functions imports forms := by
  rw [moduleReferences, moduleReferences]
  congr 1
  · rw [List.flatMap_map]
    refine List.flatMap_congr fun group member => ?_
    rw [FunctionGroup.clauses_emptied, List.flatMap_map]
    refine List.flatMap_congr fun clause listed => ?_
    have isFunction := clausesFunctions group member clause listed
    exact formReferences_emptied (some group.key) (by rw [isFunction]; decide)
  · have sameForms : ((forms.map Node.emptied).filter fun form =>
          form.kind != .function && form.kind != .module) =
        (forms.filter fun form => form.kind != .function && form.kind != .module).map
          Node.emptied := by
      simp [List.filter_map, Function.comp_def]
    rw [sameForms, List.flatMap_map]
    refine List.flatMap_congr fun form member => ?_
    have kept := (List.mem_filter.mp member).2
    rw [Bool.and_eq_true, bne_iff_ne, bne_iff_ne] at kept
    exact formReferences_emptied none kept.2

end Calls

/-! ## Scopes -/

/-- A clause is the form at its position. -/
theorem getElem?_position_of_ofModule {isNested : String → Bool} {m : Node} {scope : ModuleScope}
    (indexed : ModuleScope.ofModule isNested m = .ok scope) {group : FunctionGroup}
    (member : group ∈ scope.functions) {clause : Clause} (listed : clause ∈ group.clauses) :
    m.children[clause.position]? = some clause.node := by
  obtain ⟨_, functions, grouped, imports, _, rfl⟩ := ofModule_eq_ok_iff.mp indexed
  exact (mem_clausesOf_iff.mp (clauses_of_groupClauses grouped member listed)).1

theorem ofParts_emptiedBelow {m : Node} {functions : List FunctionGroup}
    (isNested : String → Bool) (imports : List ImportDecl)
    (grouped : groupClauses (clausesOf m.children) = .ok functions) :
    ModuleScope.ofParts isNested m.emptiedBelow (functions.map FunctionGroup.emptied) imports =
      (ModuleScope.ofParts isNested m functions imports).emptied := by
  have sameDirectives := directivesAmong_map_emptied [] false 0 m.children
  have sameUses := congrArg (List.map fun directive : Directive =>
      (⟨(directive.node.attr "module").plainText, directive.node.span⟩ : UseDecl))
    (filter_kind_congr .useDirective sameDirectives)
  simp only [List.map_map, Function.comp_def, Directive.emptied, Node.attr_emptied,
    Node.span_emptied] at sameUses
  have sameReferences := moduleReferences_emptied m.name imports m.children
    fun group member clause listed =>
      (mem_clausesOf_iff.mp (clauses_of_groupClauses grouped member listed)).2
  simp only [ModuleScope.ofParts, ModuleScope.emptied, Node.emptiedBelow,
    hasDocumentation_map_emptied, firstAttributes_map_emptied, sameUses]
  rw [← sameReferences]
  rfl

/-- The scope of a module does not depend on what is in its nested modules. -/
theorem ofModule_emptiedBelow (isNested : String → Bool) (m : Node) :
    ModuleScope.ofModule isNested m.emptiedBelow =
      (ModuleScope.ofModule isNested m).map ModuleScope.emptied := by
  by_cases isModule : m.kind = .module
  · have sameFunctions : groupClauses (clausesOf m.emptiedBelow.children) =
        (groupClauses (clausesOf m.children)).map (List.map FunctionGroup.emptied) :=
      groupClauses_emptied m.children
    have sameDirectives : (directivesAmong [] false 0 m.emptiedBelow.children).map
          Directive.emptied =
        (directivesAmong [] false 0 m.children).map Directive.emptied :=
      directivesAmong_map_emptied [] false 0 m.children
    have sameImports : (importsOf m.emptiedBelow).mapM ImportDecl.ofDirective =
        (importsOf m).mapM ImportDecl.ofDirective :=
      mapM_ofDirective_congr (filter_kind_congr .importDirective sameDirectives)
    rw [ofModule_eq_ofParts isNested isModule,
      ofModule_eq_ofParts isNested (m := m.emptiedBelow) isModule, sameFunctions, sameImports]
    cases grouped : groupClauses (clausesOf m.children) with
    | error fault => rfl
    | ok functions =>
        cases (importsOf m).mapM ImportDecl.ofDirective with
        | error fault => rfl
        | ok imports =>
            exact congrArg Except.ok (ofParts_emptiedBelow isNested imports grouped)
  · have isOther : m.emptiedBelow.kind ≠ .module := isModule
    rw [ModuleScope.ofModule, ModuleScope.ofModule, if_pos isModule, if_pos isOther]
    rfl

end StyleAudit
