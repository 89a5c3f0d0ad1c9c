import StyleAudit.Proofs.Rule.ElseDemand
import StyleAudit.Rule.ErrorMapping

/-!
# The calls that a node dispatches on

A `with` dispatches on the calls that its clauses make last, a `case` on that of
its subject (`Node.DispatchesOn`). A target is foreign when it makes a call whose
failures are not known (`ofExpression_isForeign_iff`), so the rules about calls into
other modules ask for the calls that the node dispatches on and for nothing else
about its clauses.
-/

namespace StyleAudit

/-- A clause of a `with` or the subject of a `case` makes the call last, with so
many arguments. -/
inductive Node.DispatchesOn (n call : Node) (arity : Nat) : Prop
  | clause {clause pattern expression : Node} (isWith : n.kind = .withExpr)
      (member : clause ∈ n.childrenOfKind .withClause)
      (parts : clause.branchParts? = some (pattern, expression))
      (makes : expression.callTarget? = some (call, arity))
  | subject {subject : Node} (isCase : n.kind = .caseExpr)
      (first : n.children.head? = some subject)
      (makes : subject.callTarget? = some (call, arity))

variable {trusted : List String} {scope other : ModuleScope} {n call : Node} {arity : Nat}

/-! ## Foreign targets -/

/-- The failures of the module's own functions are known. -/
theorem callOrigin_isResolved_of_isLocal
    (isLocal : (callOrigin trusted scope call arity).isLocal = true) :
    (callOrigin trusted scope call arity).isResolved = true := by
  rw [callOrigin] at isLocal ⊢
  by_cases addressed : scope.isLocal call.qualifier? = true
  · rw [if_pos addressed] at isLocal ⊢
    by_cases found : (scope.resolve? ⟨call.name, arity⟩).isSome
    · rw [if_pos found]
    · rw [if_neg found] at isLocal
      cases qualified : call.qualifier? with
      | some name =>
          rw [qualified] at isLocal
          cases isLocal
      | none =>
          rw [qualified] at isLocal
          rw [unqualifiedOrigin_isLocal] at isLocal
          cases isLocal
  · rw [if_neg addressed] at isLocal
    cases isLocal

/-- A target is foreign when it makes a call whose failures are not known. -/
theorem ofExpression_isForeign_iff {pattern expression : Node} :
    (Target.ofExpression trusted scope pattern expression).isForeign = true ↔
      ∃ call arity, expression.callTarget? = some (call, arity) ∧
        ¬KnowsFailures trusted scope call arity := by
  rw [Target.ofExpression]
  cases expression.callTarget? with
  | none => simp [Target.isForeign]
  | some called =>
      obtain ⟨call, arity⟩ := called
      simp only [Option.some.injEq, Prod.mk.injEq, ← callOrigin_isResolved_iff]
      rw [Target.isForeign]
      cases resolved : (callOrigin trusted scope call arity).isResolved with
      | true => simp [resolved]
      | false =>
          have elsewhere : (callOrigin trusted scope call arity).isLocal = false := by
            by_contra isLocal
            rw [Bool.not_eq_false] at isLocal
            rw [callOrigin_isResolved_of_isLocal isLocal] at resolved
            cases resolved
          simp [resolved, elsewhere]

/-- A node has a foreign target when it dispatches on a call whose failures are not
known. -/
theorem exists_isForeign_iff (dispatches : n.kind = .withExpr ∨ n.kind = .caseExpr) :
    (∃ target ∈ (ErrorMapping.branchesAndTargets trusted scope n).2, target.isForeign = true) ↔
      ∃ call arity, n.DispatchesOn call arity ∧ ¬KnowsFailures trusted scope call arity := by
  rw [ErrorMapping.branchesAndTargets]
  rcases dispatches with isWith | isCase
  · rw [if_pos isWith]
    constructor
    · rintro ⟨target, member, foreign⟩
      obtain ⟨clause, clauseMember, isTarget⟩ := List.mem_filterMap.mp member
      obtain ⟨⟨pattern, expression⟩, parts, rfl⟩ := Option.map_eq_some_iff.mp isTarget
      obtain ⟨call, arity, makes, unknown⟩ := ofExpression_isForeign_iff.mp foreign
      exact ⟨call, arity, .clause isWith clauseMember parts makes, unknown⟩
    · rintro ⟨call, arity, dispatched, unknown⟩
      cases dispatched with
      | @clause clause pattern expression _ member parts makes =>
          refine ⟨.ofExpression trusted scope pattern expression, ?_, ?_⟩
          · exact List.mem_filterMap.mpr ⟨clause, member, by rw [parts]; rfl⟩
          · exact ofExpression_isForeign_iff.mpr ⟨call, arity, makes, unknown⟩
      | subject isCase =>
          rw [isWith] at isCase
          cases isCase
  · have notWith : n.kind ≠ .withExpr := by
      rw [isCase]
      decide
    rw [if_neg notWith, caseTarget?]
    simp only [Option.mem_toList, Option.map_eq_some_iff]
    constructor
    · rintro ⟨_, ⟨subject, first, rfl⟩, foreign⟩
      obtain ⟨call, arity, makes, unknown⟩ := ofExpression_isForeign_iff.mp foreign
      exact ⟨call, arity, .subject isCase first makes, unknown⟩
    · rintro ⟨call, arity, dispatched, unknown⟩
      cases dispatched with
      | clause isWith => exact absurd isWith notWith
      | @subject subject _ first makes =>
          exact ⟨_, ⟨subject, first, rfl⟩,
            ofExpression_isForeign_iff.mpr ⟨call, arity, makes, unknown⟩⟩

/-- A clause whose failures are not known makes a call that the `with` dispatches
on. -/
theorem exists_unknown_clause_iff (isWith : n.kind = .withExpr) :
    (¬∀ clause ∈ n.childrenOfKind .withClause, ClauseKnowsFailures trusted scope clause) ↔
      ∃ call arity, n.DispatchesOn call arity ∧ ¬KnowsFailures trusted scope call arity := by
  constructor
  · intro unknown
    simp only [ClauseKnowsFailures, not_forall] at unknown
    obtain ⟨clause, member, pattern, expression, parts, call, arity, makes, unknown⟩ := unknown
    exact ⟨call, arity, .clause isWith member parts makes, unknown⟩
  · rintro ⟨call, arity, dispatched, unknown⟩ known
    cases dispatched with
    | clause _ member parts makes =>
        exact unknown (known _ member _ _ parts call arity makes)
    | subject isCase =>
        rw [isWith] at isCase
        cases isCase

/-! ## Scopes that give the calls the same origins -/

theorem Target.ofExpression_eq_of_callOrigin {pattern expression : Node}
    (same : ∀ call arity, expression.callTarget? = some (call, arity) →
      callOrigin trusted other call arity = callOrigin trusted scope call arity) :
    ofExpression trusted other pattern expression =
      ofExpression trusted scope pattern expression := by
  rw [ofExpression, ofExpression]
  cases makes : expression.callTarget? with
  | none => rfl
  | some called =>
      obtain ⟨call, arity⟩ := called
      simp only [same call arity makes]

/-- The calls that a node dispatches on have the same origins in both scopes. -/
def SameOrigins (trusted : List String) (scope other : ModuleScope) (n : Node) : Prop :=
  ∀ call arity, n.DispatchesOn call arity →
    callOrigin trusted other call arity = callOrigin trusted scope call arity

/-- If all calls keep their origins, a `with` keeps its targets. -/
theorem SameOrigins.withTargets_eq (same : SameOrigins trusted scope other n)
    (isWith : n.kind = .withExpr) :
    withTargets trusted other n = withTargets trusted scope n := by
  rw [withTargets, withTargets]
  refine List.filterMap_congr fun clause member => ?_
  cases parts : clause.branchParts? with
  | none => rfl
  | some pair =>
      obtain ⟨pattern, expression⟩ := pair
      refine congrArg some (Target.ofExpression_eq_of_callOrigin ?_)
      intro call arity makes
      exact same call arity (.clause isWith member parts makes)

theorem SameOrigins.branchesAndTargets_eq (same : SameOrigins trusted scope other n)
    (dispatches : n.kind = .withExpr ∨ n.kind = .caseExpr) :
    ErrorMapping.branchesAndTargets trusted other n =
      ErrorMapping.branchesAndTargets trusted scope n := by
  rw [ErrorMapping.branchesAndTargets, ErrorMapping.branchesAndTargets]
  rcases dispatches with isWith | isCase
  · rw [if_pos isWith, if_pos isWith, same.withTargets_eq isWith]
  · have notWith : n.kind ≠ .withExpr := by
      rw [isCase]
      decide
    rw [if_neg notWith, if_neg notWith, caseTarget?, caseTarget?]
    cases first : n.children.head? with
    | none => rfl
    | some subject =>
        rw [Option.map_some, Option.map_some, Target.ofExpression_eq_of_callOrigin]
        intro call arity makes
        exact same call arity (.subject isCase first makes)

end StyleAudit
