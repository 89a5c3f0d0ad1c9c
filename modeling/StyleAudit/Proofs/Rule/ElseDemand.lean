import StyleAudit.Proofs.Rule.BranchOrder

/-!
# Demands on an `else`

One rule asks for the `else` of a `with`, another one for its removal. Both ask
whether the failures of every clause are known (`KnowsFailures`), of the `with`
without the `else` and of the `with` that has it. So an `else` of echoes is asked
for by one of them and never by both, and no `else` that one of them asks for is
one that the other asks to remove (`demandsAgree`).
-/

namespace StyleAudit

/-- The node without its `else`. -/
def Node.withoutElse (n : Node) : Node :=
  { n with children := n.children.filter fun child => child.kind != .elseBlock }

/-- The node with an `else` at its end. -/
def Node.withElse (n elseBlock : Node) : Node :=
  { n with children := n.children ++ [elseBlock] }

variable {trusted : List String} {scope : ModuleScope} {n call : Node} {arity : Nat}

/-! ## Known failures -/

/-- The failures of a call are known: it lands in the module itself or in a
trusted one, which is that of its qualifier, that of the first import which lists
it or, where no import could provide it, the kernel. -/
inductive KnowsFailures (trusted : List String) (scope : ModuleScope) (call : Node)
    (arity : Nat) : Prop
  | own (addressed : scope.isLocal call.qualifier? = true)
      (found : (scope.resolve? ⟨call.name, arity⟩).isSome)
  | qualified {module : String} (qualifier : call.qualifier? = some module)
      (elsewhere : scope.isLocal (some module) = false) (isTrusted : module ∈ trusted)
  | imported {module : String} (unqualified : call.qualifier? = none)
      (missing : scope.resolve? ⟨call.name, arity⟩ = none)
      (listed : importedFrom? scope.imports ⟨call.name, arity⟩ = some module)
      (isTrusted : module ∈ trusted)
  | kernel (unqualified : call.qualifier? = none)
      (missing : scope.resolve? ⟨call.name, arity⟩ = none)
      (unlisted : importedFrom? scope.imports ⟨call.name, arity⟩ = none)
      (restricted : ∀ decl ∈ scope.imports, decl.importsUnknownNames = false)
      (isTrusted : "Kernel" ∈ trusted)

/-- The failures of an unqualified call are known if it is imported from a trusted
module, or if no import can bring it in and the kernel is trusted. -/
theorem unqualifiedOrigin_isResolved_iff {key : FunctionKey} :
    (unqualifiedOrigin trusted scope key).isResolved = true ↔
      (∃ module, importedFrom? scope.imports key = some module ∧ module ∈ trusted) ∨
        importedFrom? scope.imports key = none ∧
          (∀ decl ∈ scope.imports, decl.importsUnknownNames = false) ∧ "Kernel" ∈ trusted := by
  rw [unqualifiedOrigin]
  cases importedFrom? scope.imports key with
  | some module => simp
  | none =>
      cases unknown : scope.imports.any (·.importsUnknownNames) with
      | true =>
          obtain ⟨decl, member, mayProvide⟩ := List.any_eq_true.mp unknown
          simp only [if_true, Bool.false_eq_true, reduceCtorEq, false_and, exists_false, false_or,
            true_and, false_iff]
          rintro ⟨restricted, _⟩
          rw [restricted decl member] at mayProvide
          cases mayProvide
      | false =>
          have restricted : ∀ decl ∈ scope.imports, decl.importsUnknownNames = false := by
            simpa using unknown
          simp only [Bool.false_eq_true, if_false, List.contains_iff_mem, reduceCtorEq, false_and,
            exists_false, false_or, true_and]
          exact (and_iff_right restricted).symm

/-- When the failures of a call are known. -/
theorem callOrigin_isResolved_iff :
    (callOrigin trusted scope call arity).isResolved = true ↔
      KnowsFailures trusted scope call arity := by
  rw [callOrigin]
  constructor
  · intro resolved
    by_cases addressed : scope.isLocal call.qualifier? = true
    · rw [if_pos addressed] at resolved
      cases found : scope.resolve? ⟨call.name, arity⟩ with
      | some group => exact .own addressed (by rw [found]; rfl)
      | none =>
          rw [found] at resolved
          cases qualifier : call.qualifier? with
          | some module =>
              rw [qualifier] at resolved
              cases resolved
          | none =>
              rw [qualifier] at resolved
              rcases unqualifiedOrigin_isResolved_iff.mp resolved with
                ⟨module, listed, isTrusted⟩ | ⟨unlisted, restricted, isTrusted⟩
              · exact .imported qualifier found listed isTrusted
              · exact .kernel qualifier found unlisted restricted isTrusted
    · rw [if_neg addressed] at resolved
      obtain ⟨module, qualifier, isTrusted⟩ := (Option.any_eq_true _ _).mp resolved
      rw [qualifier, Bool.not_eq_true] at addressed
      exact .qualified qualifier addressed (List.contains_iff_mem.mp isTrusted)
  · intro known
    cases known with
    | own addressed found => rw [if_pos addressed, if_pos found]
    | qualified qualifier elsewhere isTrusted =>
        rw [qualifier, elsewhere, if_neg Bool.false_ne_true]
        exact List.contains_iff_mem.mpr isTrusted
    | imported unqualified missing listed isTrusted =>
        rw [unqualified, missing]
        exact unqualifiedOrigin_isResolved_iff.mpr (Or.inl ⟨_, listed, isTrusted⟩)
    | kernel unqualified missing unlisted restricted isTrusted =>
        rw [unqualified, missing]
        exact unqualifiedOrigin_isResolved_iff.mpr (Or.inr ⟨unlisted, restricted, isTrusted⟩)

/-- The failures of a clause are known when it makes no call or one whose
failures are known. -/
def ClauseKnowsFailures (trusted : List String) (scope : ModuleScope) (clause : Node) : Prop :=
  ∀ pattern expression, clause.branchParts? = some (pattern, expression) →
    ∀ call arity, expression.callTarget? = some (call, arity) →
      KnowsFailures trusted scope call arity

theorem ofExpression_isResolved_iff {pattern expression : Node} :
    (Target.ofExpression trusted scope pattern expression).isResolved = true ↔
      ∀ call arity, expression.callTarget? = some (call, arity) →
        KnowsFailures trusted scope call arity := by
  rw [Target.ofExpression]
  cases expression.callTarget? with
  | none => simp
  | some called =>
      obtain ⟨call, arity⟩ := called
      simp [callOrigin_isResolved_iff]

theorem withTargets_resolved_iff :
    (∀ target ∈ withTargets trusted scope n, target.isResolved = true) ↔
      ∀ clause ∈ n.childrenOfKind .withClause, ClauseKnowsFailures trusted scope clause := by
  constructor
  · intro resolved clause member pattern expression parts
    refine ofExpression_isResolved_iff.mp
      (resolved (.ofExpression trusted scope pattern expression) ?_)
    exact List.mem_filterMap.mpr ⟨clause, member, by rw [parts]; rfl⟩
  · intro known target member
    obtain ⟨clause, clauseMember, isTarget⟩ := List.mem_filterMap.mp member
    obtain ⟨⟨pattern, expression⟩, parts, rfl⟩ := Option.map_eq_some_iff.mp isTarget
    exact ofExpression_isResolved_iff.mpr (known clause clauseMember pattern expression parts)

namespace WithElse

/-! ## What the rules find -/

theorem uncovered_ne_nil_iff {targets : List Target} :
    uncovered n targets ≠ [] ↔ ¬∀ target ∈ targets, target.isResolved = true := by
  rw [uncovered]
  cases unresolved : targets.filter fun target => !target.isResolved with
  | nil =>
      have resolved : ∀ target ∈ targets, target.isResolved = true := by
        simpa using unresolved
      exact iff_of_false (fun fires => fires rfl) (not_not_intro resolved)
  | cons first rest =>
      refine iff_of_true (List.cons_ne_nil _ _) ?_
      intro resolved
      have isFirst : first ∈ targets.filter fun target => !target.isResolved := by
        rw [unresolved]
        exact List.mem_cons_self
      obtain ⟨member, failing⟩ := List.mem_filter.mp isFirst
      rw [resolved first member] at failing
      cases failing

theorem coverage_ne_nil_iff : coverage trusted scope n ≠ [] ↔
    n.childOfKind? .elseBlock = none ∧
      ¬∀ clause ∈ n.childrenOfKind .withClause, ClauseKnowsFailures trusted scope clause := by
  rw [coverage]
  cases n.childOfKind? .elseBlock with
  | none => simp only [Option.isSome_none, Bool.false_eq_true, if_false, uncovered_ne_nil_iff,
      withTargets_resolved_iff, true_and]
  | some elseBlock => simp

/-- An `else` is called redundant exactly when it only echoes and the failures of all
clauses are known. -/
theorem redundancy_ne_nil_iff : redundancy trusted scope n ≠ [] ↔
    (∃ elseBlock, n.childOfKind? .elseBlock = some elseBlock ∧ elseBlock.children ≠ [] ∧
      ∀ branch ∈ elseBlock.children, branch.isEcho = true) ∧
    ∀ clause ∈ n.childrenOfKind .withClause, ClauseKnowsFailures trusted scope clause := by
  rw [redundancy]
  cases n.childOfKind? .elseBlock with
  | none => simp
  | some elseBlock =>
      have test : (!elseBlock.children.isEmpty && (withTargets trusted scope n).all (·.isResolved)
          && elseBlock.children.all (·.isEcho)) = true ↔
            (elseBlock.children ≠ [] ∧ ∀ branch ∈ elseBlock.children, branch.isEcho = true) ∧
              ∀ clause ∈ n.childrenOfKind .withClause,
                ClauseKnowsFailures trusted scope clause := by
        rw [← withTargets_resolved_iff, Bool.and_eq_true, Bool.and_eq_true, Bool.not_eq_true',
          List.isEmpty_eq_false_iff, List.all_eq_true, List.all_eq_true, and_right_comm]
      simp only [Option.some.injEq, exists_eq_left', ← test]
      split
      · rename_i passes
        exact iff_of_true (List.cons_ne_nil _ _) passes
      · rename_i fails
        exact iff_of_false (fun fires => fires rfl) fails

/-! ## Adding and removing an `else` -/

theorem childOfKind?_withoutElse (n : Node) : n.withoutElse.childOfKind? .elseBlock = none := by
  rw [Node.childOfKind?, List.find?_eq_none]
  intro child member isElse
  have notElse := (List.mem_filter.mp member).2
  rw [bne, isElse] at notElse
  cases notElse

theorem childrenOfKind_withoutElse {kind : Kind} (notElse : kind ≠ .elseBlock) :
    n.withoutElse.childrenOfKind kind = n.childrenOfKind kind := by
  rw [Node.childrenOfKind, Node.withoutElse, List.filter_filter, Node.childrenOfKind]
  refine List.filter_congr fun child _ => ?_
  cases isKind : child.kind == kind with
  | false => rfl
  | true =>
      rw [beq_iff_eq.mp isKind, bne_iff_ne.mpr notElse]
      rfl

theorem childrenOfKind_withElse {elseBlock : Node} {kind : Kind}
    (isOther : elseBlock.kind ≠ kind) :
    (n.withElse elseBlock).childrenOfKind kind = n.childrenOfKind kind := by
  rw [Node.childrenOfKind, Node.withElse, List.filter_append, Node.childrenOfKind,
    List.filter_cons_of_neg (by simpa using isOther), List.filter_nil, List.append_nil]

/-! ## The demands -/

/-- What two rules demand of the `else` of a `with`. -/
structure DemandsAgree (trusted : List String) (scope : ModuleScope) (n : Node) : Prop where
  /-- An `else` of echoes is either redundant or required. -/
  exactlyOne : ∀ elseBlock, n.childOfKind? .elseBlock = some elseBlock →
    elseBlock.children ≠ [] → (∀ branch ∈ elseBlock.children, branch.isEcho = true) →
      Xor (redundancy trusted scope n ≠ []) (coverage trusted scope n.withoutElse ≠ [])
  /-- It is redundant when the failures of all clauses are known. -/
  decided : ∀ elseBlock, n.childOfKind? .elseBlock = some elseBlock →
    elseBlock.children ≠ [] → (∀ branch ∈ elseBlock.children, branch.isEcho = true) →
      (redundancy trusted scope n ≠ [] ↔
        ∀ clause ∈ n.childrenOfKind .withClause, ClauseKnowsFailures trusted scope clause)
  /-- No `else` is asked for that was removed on demand. -/
  removed : redundancy trusted scope n ≠ [] → coverage trusted scope n.withoutElse = []
  /-- No `else` is redundant that was added on demand. -/
  added : coverage trusted scope n ≠ [] → ∀ elseBlock : Node, elseBlock.kind = .elseBlock →
    redundancy trusted scope (n.withElse elseBlock) = []

theorem demandsAgree (trusted : List String) (scope : ModuleScope) (n : Node) :
    DemandsAgree trusted scope n := by
  have demanded : coverage trusted scope n.withoutElse ≠ [] ↔
      ¬∀ clause ∈ n.childrenOfKind .withClause, ClauseKnowsFailures trusted scope clause := by
    rw [coverage_ne_nil_iff, childrenOfKind_withoutElse (by decide)]
    exact and_iff_right (childOfKind?_withoutElse n)
  have decided : ∀ elseBlock, n.childOfKind? .elseBlock = some elseBlock →
      elseBlock.children ≠ [] → (∀ branch ∈ elseBlock.children, branch.isEcho = true) →
        (redundancy trusted scope n ≠ [] ↔
          ∀ clause ∈ n.childrenOfKind .withClause, ClauseKnowsFailures trusted scope clause) := by
    intro elseBlock carries filled echoes
    rw [redundancy_ne_nil_iff]
    exact and_iff_right ⟨elseBlock, carries, filled, echoes⟩
  refine ⟨?_, decided, ?_, ?_⟩
  · intro elseBlock carries filled echoes
    rw [decided elseBlock carries filled echoes, demanded, xor_iff_iff_not, not_not]
  · intro superfluous
    by_contra missing
    exact demanded.mp missing (redundancy_ne_nil_iff.mp superfluous).2
  · intro missing elseBlock isElse
    by_contra superfluous
    obtain ⟨_, unknown⟩ := coverage_ne_nil_iff.mp missing
    obtain ⟨_, known⟩ := redundancy_ne_nil_iff.mp superfluous
    rw [childrenOfKind_withElse (by rw [isElse]; decide)] at known
    exact unknown known

/-- A `with` on a call that only passes its failures on. -/
def echoingWith (qualifier : Literal) : Node :=
  ⟨.withExpr, lineSpan 3, [],
    [⟨.withClause, lineSpan 3, [], [atomForm 3 "ok", callForm 3 qualifier "g" []]⟩,
      ⟨.block, lineSpan 4, [], [atomForm 4 "ok"]⟩,
      ⟨.elseBlock, lineSpan 5, [],
        [⟨.branch, lineSpan 6, [], [neededParam 6, neededParam 6]⟩]⟩]⟩

def echoingForms : List Node :=
  [functionForm 2 "f" "public" [] [echoingWith .null, echoingWith (.text "B")],
    functionForm 8 "g" "private" [] [atomForm 9 "error"]]

theorem demandsAgree_echoing :
    ∃ scope, ModuleScope.ofModule (fun _ => false) (moduleOf echoingForms) = .ok scope ∧
      (redundancy [] scope (echoingWith .null)).length = 1 ∧
      coverage [] scope (echoingWith .null).withoutElse = [] ∧
      redundancy [] scope (echoingWith (.text "B")) = [] ∧
      (coverage [] scope (echoingWith (.text "B")).withoutElse).length = 1 ∧
      DemandsAgree [] scope (echoingWith .null) ∧
      DemandsAgree [] scope (echoingWith (.text "B")) := by
  have indexed : ModuleScope.ofModule (fun _ => false) (moduleOf echoingForms) = .ok _ := rfl
  exact ⟨_, indexed, by decide, by decide, by decide, by decide, demandsAgree [] _ _,
    demandsAgree [] _ _⟩

end WithElse
end StyleAudit
