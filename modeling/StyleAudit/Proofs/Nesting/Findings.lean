import StyleAudit.Proofs.Audit.Sitewise
import StyleAudit.Proofs.Nesting.Block
import StyleAudit.Proofs.Nesting.ErrorLocality
import StyleAudit.Proofs.Nesting.WithElse

/-!
# Findings do not depend on nested modules

`Rule.findings_emptied`: every rule but the one about generic errors finds the
same in a module and in the emptied one. `SameOutside` relates two modules that
differ inside of nested modules only and whose functions branch on the same
errors; they give the same records (`recordsIn_eq_of_sameOutside`).
-/

namespace StyleAudit

variable {m m' n n' : Node} {scope scope' : ModuleScope} {path : NodePath}

namespace ModuleForm

theorem importScope_emptied (scope : ModuleScope) (path : NodePath) (n : Node) :
    importScope scope.emptied ⟨path, n.emptied⟩ = importScope scope ⟨path, n⟩ := by
  have sameImport : scope.emptied.importAt? path = scope.importAt? path := rfl
  simp only [importScope, sameImport, Node.span_emptied]

theorem testCaseUsage_emptied (support : List (String × Capability)) (scope : ModuleScope)
    (n : Node) : testCaseUsage support scope.emptied n.emptied = testCaseUsage support scope n := by
  have sameExercise : isExercised scope.emptied = isExercised scope := rfl
  have sameName : scope.emptied.name = scope.name := rfl
  simp only [testCaseUsage, sameExercise, sameName, Node.attr_emptied, Node.span_emptied]

theorem moduledocScope_emptied (scope : ModuleScope) (n : Node) :
    moduledocScope scope.emptied n.emptied = moduledocScope scope n := by
  have sameDoc : scope.emptied.hasDoc = scope.hasDoc := rfl
  have sameNesting : scope.emptied.isNested = scope.isNested := rfl
  have sameName : scope.emptied.name = scope.name := rfl
  simp only [moduledocScope, sameDoc, sameNesting, sameName, Node.span_emptied]

end ModuleForm

/-- A rule finds the same at a node of a module and at the emptied node of the
emptied module. -/
theorem Rule.findings_emptied {rule : Rule} (settings : RuleSettings) (graph : CallGraph)
    (shaped : m.IsWellShaped) (refers : scope.RefersTo m) (nodeShaped : n.IsWellShaped)
    (interested : n.kind ∈ rule.kinds) (notLocality : rule ≠ .errorHandlingLocality) :
    rule.findings settings ⟨scope.emptied, graph⟩ ⟨path, n.emptied⟩ =
      rule.findings settings ⟨scope, graph⟩ ⟨path, n⟩ := by
  cases rule with
  | withElseCoverage =>
      exact WithElse.coverage_emptied scope nodeShaped (List.mem_singleton.mp interested)
  | withElseRedundancy =>
      exact WithElse.redundancy_emptied scope nodeShaped (List.mem_singleton.mp interested)
  | withElseOrder =>
      exact WithElse.order_emptied shaped refers nodeShaped (List.mem_singleton.mp interested)
  | errorMapping =>
      exact ErrorMapping.check_emptied scope nodeShaped (by simpa [kinds] using interested)
  | moduledocScope => exact ModuleForm.moduledocScope_emptied scope n
  | importScope => exact ModuleForm.importScope_emptied scope path n
  | testCaseUsage => exact ModuleForm.testCaseUsage_emptied settings.testSupport scope n
  | sequentialNaming => exact Naming.sequential_emptied (by simpa [kinds] using interested)
  | predicateNaming => exact Naming.predicate_emptied settings shaped refers path n
  | functionOrder => exact FunctionOrder.check_emptied scope graph
  | flowDirectiveChoice =>
      exact Flow.directiveChoice_emptied nodeShaped (by simpa [kinds] using interested)
  | patternMatchingUsage => exact Extraction.check_emptied (List.mem_singleton.mp interested)
  | nestedStructureMacroUsage => exact NestedUpdate.check_emptied (List.mem_singleton.mp interested)
  | optionFormat =>
      exact OptionFormat.check_emptied settings.optionNames nodeShaped
        (List.mem_singleton.mp interested)
  | errorHandlingLocality => exact absurd rfl notLocality
  | okErrorReturnConsistency => exact Tagging.check_emptied shaped refers path n

/-! ## Modules that differ inside of nested ones -/

/-- The modules are the same when emptied, and the bodies of their functions
branch on the same generic errors. -/
structure SameOutside (m m' : Node) : Prop where
  emptied : m.emptiedBelow = m'.emptiedBelow
  branching : ∀ position error, ErrorLocality.isGenericError error = true →
    ErrorLocality.branchesAt m position error = ErrorLocality.branchesAt m' position error

theorem SameOutside.refl (m : Node) : SameOutside m m where
  emptied := rfl
  branching := fun _ _ _ => rfl

theorem SameOutside.ofModule_eq (same : SameOutside m m') (isNested : String → Bool) :
    (ModuleScope.ofModule isNested m).map ModuleScope.emptied =
      (ModuleScope.ofModule isNested m').map ModuleScope.emptied := by
  rw [← ofModule_emptiedBelow, same.emptied, ofModule_emptiedBelow]

/-- Modules that agree outside their nested modules fail to index for the same reasons. -/
theorem SameOutside.error_iff (same : SameOutside m m') (isNested : String → Bool)
    (fault : IndexFault) :
    ModuleScope.ofModule isNested m = .error fault ↔
      ModuleScope.ofModule isNested m' = .error fault := by
  have equal := same.ofModule_eq isNested
  cases indexed : ModuleScope.ofModule isNested m with
  | error found =>
      cases indexed' : ModuleScope.ofModule isNested m' with
      | error other =>
          rw [indexed, indexed'] at equal
          rw [Except.error.inj equal]
      | ok scope =>
          rw [indexed, indexed'] at equal
          cases equal
  | ok scope =>
      cases indexed' : ModuleScope.ofModule isNested m' with
      | error other =>
          rw [indexed, indexed'] at equal
          cases equal
      | ok scope => simp

/-- A rule finds the same in two modules that agree outside their nested modules. -/
theorem findings_eq_of_sameOutside {isNested : String → Bool} {rule : Rule}
    (settings : RuleSettings) (same : SameOutside m m') (shaped : m.IsWellShaped)
    (shaped' : m'.IsWellShaped) (indexed : ModuleScope.ofModule isNested m = .ok scope)
    (indexed' : ModuleScope.ofModule isNested m' = .ok scope') (nodeShaped : n.IsWellShaped)
    (nodeShaped' : n'.IsWellShaped) (sameNode : n.emptied = n'.emptied)
    (interested : n.kind ∈ rule.kinds) :
    rule.findings settings ⟨scope, CallGraph.ofScope scope⟩ ⟨path, n⟩ =
      rule.findings settings ⟨scope', CallGraph.ofScope scope'⟩ ⟨path, n'⟩ := by
  have sameScope : scope.emptied = scope'.emptied := by
    have equal := same.ofModule_eq isNested
    rw [indexed, indexed'] at equal
    exact Except.ok.inj equal
  have sameGraph : CallGraph.ofScope scope = CallGraph.ofScope scope' := by
    rw [← graph_emptied, sameScope, graph_emptied]
  have interested' : n'.kind ∈ rule.kinds := Node.kind_eq_of_emptied_eq sameNode ▸ interested
  rw [sameGraph]
  by_cases isLocality : rule = .errorHandlingLocality
  · subst isLocality
    exact ErrorLocality.check_eq_of_branchesAt indexed indexed' sameScope same.branching nodeShaped
      nodeShaped' (List.mem_singleton.mp interested) sameNode
  · rw [← Rule.findings_emptied settings _ shaped (refersTo_of_ofModule indexed) nodeShaped
        interested isLocality, sameScope, sameNode,
      Rule.findings_emptied settings _ shaped' (refersTo_of_ofModule indexed') nodeShaped'
        interested' isLocality]

/-- Rules report the same about nodes that are the same when emptied. -/
theorem recordsIn_eq_of_sameOutside {isNested : String → Bool} (catalog : Catalog)
    (same : SameOutside m m') (shaped : m.IsWellShaped) (shaped' : m'.IsWellShaped)
    (nodeShaped : n.IsWellShaped) (nodeShaped' : n'.IsWellShaped)
    (sameNode : n.emptied = n'.emptied) :
    catalog.recordsIn isNested m ⟨path, n⟩ = catalog.recordsIn isNested m' ⟨path, n'⟩ := by
  cases indexed : ModuleScope.ofModule isNested m with
  | error fault =>
      rw [Catalog.recordsIn, Catalog.recordsIn, indexed, (same.error_iff isNested fault).mp indexed]
  | ok scope =>
      cases indexed' : ModuleScope.ofModule isNested m' with
      | error fault =>
          rw [(same.error_iff isNested fault).mpr indexed'] at indexed
          cases indexed
      | ok scope' =>
          rw [Catalog.recordsIn, Catalog.recordsIn, indexed, indexed']
          refine List.flatMap_congr fun rule _ => ?_
          simp only [← Node.kind_eq_of_emptied_eq sameNode]
          split
          · rename_i interested
            rw [Rule.check, Rule.check, findings_eq_of_sameOutside catalog.settings same shaped
              shaped' indexed indexed' nodeShaped nodeShaped' sameNode interested]
          · rfl

end StyleAudit
