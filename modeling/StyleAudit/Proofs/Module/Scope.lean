import StyleAudit.Proofs.Module.ClauseGroups
import StyleAudit.Proofs.Module.ImportEntry

/-!
# What a scope refers to

The functions of a scope are made of the function clauses among the forms of its
module, and its call sites stand in and bind to functions that it lists
(`refersTo_of_ofModule`).
-/

namespace StyleAudit

/-! ## Functions -/

/-- The functions of a module consist of its function clauses. -/
theorem clauses_of_groupClauses {forms : List Node} {functions : List FunctionGroup}
    (grouped : groupClauses (clausesOf forms) = .ok functions) {group : FunctionGroup}
    (member : group ∈ functions) {clause : Clause} (listed : clause ∈ group.clauses) :
    clause ∈ clausesOf forms := by
  rw [(indexes_of_groupClauses grouped).clauses_eq group member] at listed
  exact List.mem_of_mem_filter listed

/-! ## Call sites -/

theorem mem_of_resolveIn {functions : List FunctionGroup} {key : FunctionKey}
    {group : FunctionGroup} (found : resolveIn functions key = some group) :
    group ∈ functions := by
  rw [resolveIn, Option.or_eq_some_iff] at found
  rcases found with exact | ⟨_, accepting⟩
  · exact List.mem_of_find?_eq_some exact
  · exact List.mem_of_find?_eq_some accepting

theorem resolved_of_formReferences {moduleName : String} {functions : List FunctionGroup}
    {imports : List ImportDecl} {caller : Option FunctionKey} {form : Node} {ref : CallRef}
    (member : ref ∈ formReferences moduleName functions imports caller form) :
    ref.caller = caller ∧ ∀ key, ref.resolved = some key → key ∈ functions.map (·.key) := by
  obtain ⟨⟨call, arity⟩, _, rfl⟩ := List.mem_map.mp member
  refine ⟨rfl, ?_⟩
  intro key resolved
  obtain ⟨group, found, rfl⟩ := Option.map_eq_some_iff.mp resolved
  split at found
  · exact List.mem_map_of_mem (mem_of_resolveIn found)
  · cases found

/-- Call sites stand in listed functions and bind to listed functions. -/
theorem keys_of_moduleReferences {moduleName : String} {functions : List FunctionGroup}
    {imports : List ImportDecl} {forms : List Node} {ref : CallRef}
    (member : ref ∈ moduleReferences moduleName functions imports forms) :
    (∀ key, ref.caller = some key → key ∈ functions.map (·.key)) ∧
      ∀ key, ref.resolved = some key → key ∈ functions.map (·.key) := by
  rcases List.mem_append.mp member with inFunction | inForm
  · obtain ⟨group, groupMember, inGroup⟩ := List.mem_flatMap.mp inFunction
    obtain ⟨clause, _, inClause⟩ := List.mem_flatMap.mp inGroup
    obtain ⟨isCaller, binds⟩ := resolved_of_formReferences inClause
    refine ⟨?_, binds⟩
    intro key stands
    rw [isCaller] at stands
    cases stands
    exact List.mem_map_of_mem groupMember
  · obtain ⟨form, _, inside⟩ := List.mem_flatMap.mp inForm
    obtain ⟨isCaller, binds⟩ := resolved_of_formReferences inside
    refine ⟨?_, binds⟩
    intro key stands
    rw [isCaller] at stands
    cases stands

/-! ## Scopes -/

/-- The import directives of a module. -/
def importsOf (m : Node) : List Directive :=
  (directivesAmong [] false 0 m.children).filter (·.node.kind == .importDirective)

/-- The scope of a module with the given functions and imports. -/
def ModuleScope.ofParts (isNested : String → Bool) (m : Node) (functions : List FunctionGroup)
    (imports : List ImportDecl) : ModuleScope :=
  { name := m.name
    span := m.span
    hasDoc := hasDocumentation m.children
    isNested := isNested m.name
    functions := functions
    imports := imports
    uses := ((directivesAmong [] false 0 m.children).filter
      (·.node.kind == .useDirective)).map fun directive =>
        ⟨(directive.node.attr "module").plainText, directive.node.span⟩
    attributes := firstAttributes m.children
    references := moduleReferences m.name functions imports m.children }

/-- Indexing a module groups its clauses, reads its imports and puts the parts
together. -/
theorem ofModule_eq_ofParts {m : Node} (isNested : String → Bool) (isModule : m.kind = .module) :
    ModuleScope.ofModule isNested m = do
      let functions ← confine (groupClauses (clausesOf m.children))
      let imports ← (importsOf m).mapM ImportDecl.ofDirective
      return .ofParts isNested m functions imports := by
  rw [ModuleScope.ofModule, if_neg (not_not_intro isModule)]
  rfl

/-- A scope is that of a module whose function forms can be joined and whose
imports can be read. -/
theorem ofModule_eq_ok_iff {isNested : String → Bool} {m : Node} {scope : ModuleScope} :
    ModuleScope.ofModule isNested m = .ok scope ↔
      m.kind = .module ∧
        ∃ functions, groupClauses (clausesOf m.children) = .ok functions ∧
          ∃ imports, (importsOf m).mapM ImportDecl.ofDirective = .ok imports ∧
            scope = .ofParts isNested m functions imports := by
  by_cases isModule : m.kind = .module
  · rw [ofModule_eq_ofParts isNested isModule, Outcome.bind_eq_ok_iff]
    simp only [confine_eq_ok_iff, Outcome.bind_eq_ok_iff, isModule, true_and]
    refine exists_congr fun functions => and_congr_right fun _ => ?_
    refine exists_congr fun imports => and_congr_right fun _ => ?_
    constructor
    · intro same
      exact (Except.ok.inj same).symm
    · rintro rfl
      rfl
  · rw [ModuleScope.ofModule, if_pos isModule]
    constructor
    · intro impossible
      cases impossible
    · intro found
      exact absurd found.1 isModule

theorem name_of_ofModule {isNested : String → Bool} {m : Node} {scope : ModuleScope}
    (indexed : ModuleScope.ofModule isNested m = .ok scope) : scope.name = m.name := by
  obtain ⟨_, _, _, _, _, rfl⟩ := ofModule_eq_ok_iff.mp indexed
  rfl

/-- What a scope of a module refers to is there: its clauses are functions among
the forms of the module, and its call sites stand in and bind to its functions. -/
structure ModuleScope.RefersTo (scope : ModuleScope) (m : Node) : Prop where
  clauses : ∀ group ∈ scope.functions, ∀ clause ∈ group.clauses,
    clause.node ∈ m.children ∧ clause.node.kind = .function
  callers : ∀ ref ∈ scope.references, ∀ key, ref.caller = some key →
    key ∈ scope.functions.map (·.key)
  resolved : ∀ ref ∈ scope.references, ∀ key, ref.resolved = some key →
    key ∈ scope.functions.map (·.key)

/-- An indexed scope refers only to what is there. -/
theorem refersTo_of_ofModule {isNested : String → Bool} {m : Node} {scope : ModuleScope}
    (indexed : ModuleScope.ofModule isNested m = .ok scope) : scope.RefersTo m := by
  obtain ⟨_, functions, grouped, imports, _, rfl⟩ := ofModule_eq_ok_iff.mp indexed
  refine ⟨?_, ?_, ?_⟩
  · intro group member clause listed
    obtain ⟨found, isFunction⟩ :=
      mem_clausesOf_iff.mp (clauses_of_groupClauses grouped member listed)
    exact ⟨List.mem_of_getElem? found, isFunction⟩
  · intro ref member
    exact (keys_of_moduleReferences member).1
  · intro ref member
    exact (keys_of_moduleReferences member).2

end StyleAudit
