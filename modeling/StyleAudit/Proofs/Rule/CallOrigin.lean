import StyleAudit.Proofs.Module.Reference
import StyleAudit.Proofs.Rule.Reading

/-!
# Origins and call sites

`callOrigin` resolves the calls of a `with` or a `case` anew. It finds what the
call sites of the scope record: the same calls are local, and the others land in
the same module (`callOrigin_agrees_with_references`). The targets of a `with`
or a `case` are calls of the module itself that take the recorded number of
arguments.
-/

namespace StyleAudit

variable {isNested : String → Bool} {m n call expression : Node} {scope : ModuleScope}
  {path : NodePath} {ref : CallRef} {trusted : List String}

/-! ## Origins -/

/-- An origin says of a call what its call site records. Where no module is
recorded the origin may be unknown or the kernel. -/
structure Origin.AgreesWith (origin : Origin) (ref : CallRef) : Prop where
  isLocal : origin.isLocal = true ↔ ref.resolved.isSome
  known : origin.isLocal = false → ∀ name, ref.module = some name → origin.module = some name
  unknown : origin.isLocal = false → ref.module = none →
    origin.module = none ∨ origin.module = some "Kernel"

/-- An origin that is not local agrees with a call site that binds to no
function of the module. -/
theorem Origin.AgreesWith.of_elsewhere {origin : Origin} (elsewhere : origin.isLocal = false)
    (unresolved : ref.resolved = none)
    (same : origin.module = ref.module ∨ ref.module = none ∧ origin.module = some "Kernel") :
    origin.AgreesWith ref := by
  refine ⟨?_, ?_, ?_⟩
  · rw [elsewhere, unresolved]
    decide
  · intro _ name recorded
    rcases same with same | ⟨nothing, _⟩
    · rw [same, recorded]
    · rw [nothing] at recorded
      cases recorded
  · intro _ nothing
    rcases same with same | ⟨_, kernel⟩
    · exact Or.inl (same.trans nothing)
    · exact Or.inr kernel

theorem unqualifiedOrigin_isLocal (key : FunctionKey) :
    (unqualifiedOrigin trusted scope key).isLocal = false := by
  rw [unqualifiedOrigin]
  split
  · rfl
  · split <;> rfl

/-- Both resolvers look for an unqualified call in the import lists; the kernel
and unknown imports come after them. -/
theorem unqualifiedOrigin_module (key : FunctionKey) :
    (unqualifiedOrigin trusted scope key).module = importedFrom? scope.imports key ∨
      importedFrom? scope.imports key = none ∧
        (unqualifiedOrigin trusted scope key).module = some "Kernel" := by
  rw [unqualifiedOrigin]
  cases importedFrom? scope.imports key with
  | some target => exact Or.inl rfl
  | none =>
      by_cases anyUnknown : scope.imports.any (·.importsUnknownNames) = true
      · rw [if_pos anyUnknown]
        exact Or.inl rfl
      · rw [if_neg anyUnknown]
        exact Or.inr ⟨rfl, rfl⟩

/-- A call site is resolved when the call may address the module and its name
and number of arguments are found there. -/
theorem CallRef.Records.resolved_isSome_iff (records : ref.Records scope m path call)
    (isNamed : scope.name = m.name) (index : Indexes (clausesOf m.children) scope.functions) :
    ref.resolved.isSome ↔ scope.isLocal call.qualifier? = true ∧
      (scope.resolve? ⟨call.name, m.arityAt path call⟩).isSome := by
  rw [records.binds, records.arity, resolve?_isSome_iff index, ModuleScope.isLocal, isNamed,
    isLocalQualifier_iff]

/-- The origin of a call agrees with whatever records the call. -/
theorem CallRef.Records.agreesWith (records : ref.Records scope m path call)
    (isNamed : scope.name = m.name) (index : Indexes (clausesOf m.children) scope.functions) :
    (callOrigin trusted scope call (m.arityAt path call)).AgreesWith ref := by
  have bound := records.resolved_isSome_iff isNamed index
  have listed := records.module
  rw [callOrigin]
  by_cases addressed : scope.isLocal call.qualifier? = true
  · rw [if_pos addressed]
    by_cases found : (scope.resolve? ⟨call.name, m.arityAt path call⟩).isSome
    · rw [if_pos found]
      refine ⟨iff_of_true rfl (bound.mpr ⟨addressed, found⟩), ?_, ?_⟩
      · intro impossible
        cases impossible
      · intro impossible
        cases impossible
    · rw [if_neg found]
      have unresolved : ref.resolved = none :=
        Option.not_isSome_iff_eq_none.mp fun resolved => found (bound.mp resolved).2
      -- Only a call without a qualifier is looked for in the imports.
      cases qualified : call.qualifier? with
      | some name =>
          rw [qualified, if_neg fun unqualified => by cases unqualified.2] at listed
          exact .of_elsewhere rfl unresolved (Or.inl listed.symm)
      | none =>
          rw [qualified, if_pos ⟨unresolved, rfl⟩, records.arity] at listed
          refine .of_elsewhere (unqualifiedOrigin_isLocal _) unresolved ?_
          rw [listed]
          exact unqualifiedOrigin_module _
  · rw [if_neg addressed]
    have unresolved : ref.resolved = none :=
      Option.not_isSome_iff_eq_none.mp fun resolved => addressed (bound.mp resolved).1
    have isQualified : call.qualifier? ≠ none := by
      intro unqualified
      rw [unqualified] at addressed
      exact addressed rfl
    rw [if_neg fun unqualified => isQualified unqualified.2] at listed
    exact .of_elsewhere rfl unresolved (Or.inl listed.symm)

/-! ## Targets -/

/-- The way from an expression to the call that it makes last. -/
def Node.callWay (expression : Node) : NodePath :=
  if expression.kind = .pipe then [1] else []

/-- The call that an expression of the module itself makes last is a call of the
module itself and takes as many arguments there. -/
theorem Node.IsOwn.callTarget {arity : Nat} (own : m.IsOwn path expression)
    (shaped : expression.IsWellShaped) (unfed : m.isFed path = false)
    (makes : expression.callTarget? = some (call, arity)) :
    m.IsOwnCall (path ++ expression.callWay) call ∧
      arity = m.arityAt (path ++ expression.callWay) call := by
  rw [Node.callTarget?] at makes
  split at makes
  · rename_i isCall
    have here : expression.callWay = [] := by
      rw [Node.callWay, if_neg (by rw [isCall]; decide)]
    cases makes
    rw [here, List.append_nil, Node.arityAt, unfed]
    exact ⟨⟨own, isCall⟩, rfl⟩
  · rename_i isPipe
    obtain ⟨input, fed, rest, children, _, _⟩ := shaped.exists_pair (by rw [isPipe]; rfl)
    have isCall := shaped.second_kind (by rw [isPipe]; rfl) children
    rw [Node.pipedCall?, isPipe, children] at makes
    cases makes
    have below : expression.callWay = [1] := by
      rw [Node.callWay, if_pos isPipe]
    have feeds : expression.feeds 1 = true := by
      rw [Node.feeds, isPipe]
      decide
    rw [below, Node.arityAt, Node.isFed_concat own.reached, feeds]
    refine ⟨⟨own.to_child ?_ ?_, isCall⟩, rfl⟩
    · rw [children]
      rfl
    · rw [isCall]
      decide
  · cases makes

/-- What a target says of its call is recorded in the scope. Its expression
stands at a path of the module. -/
def Target.IsRecorded (target : Target) (scope : ModuleScope) (m : Node) (path : NodePath) :
    Prop :=
  ∀ call, target.call = some call → m.IsOwnCall (path ++ target.expression.callWay) call ∧
    ∃ ref ∈ scope.references, ref.Records scope m (path ++ target.expression.callWay) call ∧
      ref.arity = target.arity ∧
      (⟨target.module, target.isLocal, target.isResolved⟩ : Origin).AgreesWith ref

/-- Every call of the module has a call site, and both resolvers agree on it. -/
structure ModuleScope.OriginsAgree (scope : ModuleScope) (trusted : List String) (m : Node) :
    Prop where
  listed : ∀ path call, m.IsOwnCall path call → ∃ ref ∈ scope.references,
    ref.Records scope m path call
  origins : ∀ path call, m.IsOwnCall path call → ∀ ref, ref.Records scope m path call →
    (callOrigin trusted scope call (m.arityAt path call)).AgreesWith ref
  /-- The target of each clause of a `with`. -/
  clauses : m.IsWellShaped → ∀ path n, m.IsOwn path n → n.kind = .withExpr →
    ∀ position clause, n.children[position]? = some clause → clause.kind = .withClause →
      ∃ target ∈ withTargets trusted scope n,
        clause.branchParts? = some (target.pattern, target.expression) ∧
        target.IsRecorded scope m (path ++ [position] ++ [1])
  /-- The target of the subject of a `case`. -/
  subjects : m.IsWellShaped → ∀ path n, m.IsOwn path n → n.kind = .caseExpr →
    ∃ target, caseTarget? trusted scope n = some target ∧
      target.IsRecorded scope m (path ++ [0])

theorem Target.ofExpression_expression (trusted : List String) (scope : ModuleScope)
    (pattern expression : Node) :
    (Target.ofExpression trusted scope pattern expression).expression = expression := by
  rw [Target.ofExpression]
  cases expression.callTarget? <;> rfl

section Indexed

variable (indexed : ModuleScope.ofModule isNested m = .ok scope)
include indexed

theorem exists_records (own : m.IsOwnCall path call) :
    ∃ ref ∈ scope.references, ref.Records scope m path call := by
  obtain ⟨sites, listed, _, sited⟩ := exists_callSites indexed
  have member := (sited path _).mpr ⟨call, own, rfl⟩
  rw [← listed]
  exact ⟨_, List.mem_map_of_mem member, callSite_records (indexes_of_ofModule indexed) path call⟩

/-- The target of an expression of the module itself that no pipe feeds. An
expression that is a nested module makes no call. -/
theorem Target.isRecorded_ofExpression {pattern : Node} (shaped : expression.IsWellShaped)
    (unfed : m.isFed path = false) (own : expression.kind ≠ .module → m.IsOwn path expression) :
    (Target.ofExpression trusted scope pattern expression).IsRecorded scope m path := by
  intro call calls
  rw [ofExpression] at calls ⊢
  cases makes : expression.callTarget? with
  | none =>
      rw [makes] at calls
      cases calls
  | some called =>
      obtain ⟨made, arity⟩ := called
      rw [makes] at calls
      cases calls
      have noModule : expression.kind ≠ .module := by
        intro isModule
        rw [Node.callTarget?, isModule] at makes
        cases makes
      obtain ⟨ownCall, taken⟩ := (own noModule).callTarget shaped unfed makes
      obtain ⟨ref, member, records⟩ := exists_records indexed ownCall
      refine ⟨ownCall, ref, member, records, records.arity.trans taken.symm, ?_⟩
      rw [taken]
      exact records.agreesWith (name_of_ofModule indexed) (indexes_of_ofModule indexed)

/-- Each clause of a `with` has its target, and the call of the target is a recorded
call site. -/
theorem exists_target_of_withClause {clause : Node} {position : Nat} (shaped : n.IsWellShaped)
    (own : m.IsOwn path n) (found : n.children[position]? = some clause)
    (isClause : clause.kind = .withClause) :
    ∃ target ∈ withTargets trusted scope n,
      clause.branchParts? = some (target.pattern, target.expression) ∧
        target.IsRecorded scope m (path ++ [position] ++ [1]) := by
  have clauseShaped := shaped.of_child (List.mem_of_getElem? found)
  obtain ⟨pattern, expression, rest, children, _, expressionShaped⟩ :=
    clauseShaped.exists_pair (by rw [isClause]; rfl)
  have parts : clause.branchParts? = some (pattern, expression) := by
    rw [Node.branchParts?, children]
  have clauseOwn := own.to_child found (by rw [isClause]; decide)
  have unfed : clause.feeds 1 = false := by
    rw [Node.feeds, isClause]
    decide
  refine ⟨.ofExpression trusted scope pattern expression, ?_, ?_, ?_⟩
  · refine List.mem_filterMap.mpr ⟨clause, ?_, by rw [parts]; rfl⟩
    exact List.mem_filter.mpr ⟨List.mem_of_getElem? found, beq_iff_eq.mpr isClause⟩
  · rw [parts, Target.ofExpression_pattern, Target.ofExpression_expression]
  · refine Target.isRecorded_ofExpression indexed expressionShaped ?_ ?_
    · rw [Node.isFed_concat clauseOwn.reached, unfed]
    · intro noModule
      exact clauseOwn.to_child (by rw [children]; rfl) noModule

/-- The subject of a `case` has its target, and the call of the target is a recorded
call site. -/
theorem exists_target_of_case (shaped : n.IsWellShaped) (own : m.IsOwn path n)
    (isCase : n.kind = .caseExpr) :
    ∃ target, caseTarget? trusted scope n = some target ∧
      target.IsRecorded scope m (path ++ [0]) := by
  obtain ⟨subject, rest, children, subjectShaped⟩ :=
    shaped.exists_first (by rw [isCase]; decide)
  have unfed : n.feeds 0 = false := by
    rw [Node.feeds, isCase]
    decide
  refine ⟨.ofExpression trusted scope subject subject, by rw [caseTarget?, children]; rfl, ?_⟩
  refine Target.isRecorded_ofExpression indexed subjectShaped ?_ ?_
  · rw [Node.isFed_concat own.reached, unfed]
  · intro noModule
    exact own.to_child (by rw [children]; rfl) noModule

end Indexed

/-- The two resolvers of calls agree. -/
theorem callOrigin_agrees_with_references (indexed : ModuleScope.ofModule isNested m = .ok scope)
    (trusted : List String) : scope.OriginsAgree trusted m := by
  have isNamed := name_of_ofModule indexed
  have index := indexes_of_ofModule indexed
  refine ⟨?_, ?_, ?_, ?_⟩
  · intro path call own
    exact exists_records indexed own
  · intro path call _ ref records
    exact records.agreesWith isNamed index
  · intro shaped path n own _ position clause found isClause
    exact exists_target_of_withClause indexed (shaped.of_at? own.reached) own found isClause
  · intro shaped path n own isCase
    exact exists_target_of_case indexed (shaped.of_at? own.reached) own isCase

/-! ## Calls of all origins -/

/-- A `with` that calls a function of the module and an imported one. -/
def dispatchingWith : Node :=
  ⟨.withExpr, lineSpan 4, [],
    [⟨.withClause, lineSpan 4, [],
        [neededParam 4, ⟨.pipe, lineSpan 4, [], [neededParam 4, callForm 4 .null "g" []]⟩]⟩,
      ⟨.withClause, lineSpan 5, [], [neededParam 5, callForm 5 .null "h" []]⟩,
      ⟨.block, lineSpan 6, [], [neededParam 6]⟩]⟩

/-- A `case` on a call that names the module but no function of it. -/
def dispatchingCase : Node :=
  ⟨.caseExpr, lineSpan 8, [],
    [callForm 8 (.text "A") "h" [neededParam 8],
      ⟨.branch, lineSpan 9, [], [neededParam 9, callForm 9 .null "length" [neededParam 9]]⟩]⟩

def dispatchingForms : List Node :=
  [⟨.importDirective, lineSpan 2,
      [("module", .one (.text "B")), ("only", .many [.text "h/0"])], []⟩,
    functionForm 3 "f" "public" [neededParam 3] [dispatchingWith],
    functionForm 7 "g" "private" [neededParam 7, optionalParam 7] [dispatchingCase]]

theorem callOrigin_agrees_with_references_dispatching :
    ∃ scope, ModuleScope.ofModule (fun _ => false) (moduleOf dispatchingForms) = .ok scope ∧
      scope.references.map (fun ref => (ref.name, ref.arity, ref.module, ref.resolved)) =
        [("g", 1, none, some ⟨"g", 2⟩), ("h", 0, some "B", none), ("h", 1, some "A", none),
          ("length", 1, none, none)] ∧
      (withTargets ["B"] scope dispatchingWith).map (fun target =>
          (target.arity, target.module, target.isLocal)) =
        [(1, some "A", true), (0, some "B", false)] ∧
      (moduleOf dispatchingForms).IsWellShaped ∧
      scope.OriginsAgree ["B"] (moduleOf dispatchingForms) := by
  have indexed : ModuleScope.ofModule (fun _ => false) (moduleOf dispatchingForms) = .ok _ := rfl
  have shaped : (moduleOf dispatchingForms).IsWellShaped := by
    unfold Node.IsWellShaped
    decide +kernel
  exact ⟨_, indexed, by decide +kernel, by decide +kernel, shaped,
    callOrigin_agrees_with_references indexed ["B"]⟩

end StyleAudit
