import StyleAudit.Proofs.Expression.Terminals
import StyleAudit.Proofs.Module.Scope
import StyleAudit.Rule.CallOrigin

/-!
# Reading what rules share

Several rules look at the bodies of functions and at the calls that the clauses
of a `with` make. `FunctionGroup.readSites` and `readWithTargets` make the
look-ups of children by position on the way; on trees whose nodes have the shape
of their kinds they find what the rules work with.
-/

namespace StyleAudit

/-- Nodes of a kind that needs a child have one. -/
theorem Node.IsWellShaped.exists_first {n : Node} (shaped : n.IsWellShaped)
    (needsOne : 1 ≤ n.kind.shape.leastChildren) :
    ∃ first rest, n.children = first :: rest ∧ first.IsWellShaped := by
  have enough := Nat.le_trans needsOne (shaped.fits (mem_preorder_self n)).enough
  cases children : n.children with
  | nil =>
      rw [children] at enough
      cases enough
  | cons first rest =>
      refine ⟨first, rest, rfl, shaped.of_child ?_⟩
      rw [children]
      exact List.mem_cons_self

/-- Pattern and body of a branch can be looked up. -/
theorem Node.IsWellShaped.readBranch {n : Node} (shaped : n.IsWellShaped)
    (isBranch : n.kind = .branch) :
    ∃ pattern body, n.childAt 0 = .ok pattern ∧ n.childAt 1 = .ok body ∧
      n.branchParts? = some (pattern, body) ∧ pattern.IsWellShaped ∧ body.IsWellShaped := by
  obtain ⟨pattern, body, rest, children, patternShaped, bodyShaped⟩ :=
    shaped.exists_pair (by rw [isBranch]; rfl)
  refine ⟨pattern, body, childAt_eq_ok (by rw [children]; rfl),
    childAt_eq_ok (by rw [children]; rfl), ?_, patternShaped, bodyShaped⟩
  rw [branchParts?, children]

/-- The only expression of a body is below it. -/
theorem Node.IsWellShaped.of_singleExpression {n expression : Node} (shaped : n.IsWellShaped)
    (single : n.singleExpression? = some expression) : expression.IsWellShaped := by
  rw [singleExpression?] at single
  split at single
  · split at single
    · rename_i only children
      cases single
      exact shaped.of_child (by simp [children])
    · cases single
  · cases single
    exact shaped

/-! ## The bodies of functions -/

/-- The bodies of all clauses of a function. -/
def FunctionGroup.readBodies (group : FunctionGroup) : Reading (List Node) :=
  group.clauses.mapM fun clause => clause.node.childAt 1

/-- The return sites of all clauses of a function. -/
def FunctionGroup.readSites (group : FunctionGroup) : Reading (List Node) := do
  let bodies ← group.readBodies
  let sites ← bodies.mapM Node.readTerminals
  return sites.flatten

section Scopes

variable {m : Node} {scope : ModuleScope} {group : FunctionGroup}

theorem readBodies_eq (shaped : m.IsWellShaped) (refers : scope.RefersTo m)
    (member : group ∈ scope.functions) :
    group.readBodies = .ok group.bodies ∧ ∀ body ∈ group.bodies, body.IsWellShaped := by
  have clauseRead : ∀ clause ∈ group.clauses, ∃ body, clause.node.childAt 1 = .ok body ∧
      clause.body? = some body ∧ body.IsWellShaped := by
    intro clause listed
    obtain ⟨isForm, isFunction⟩ := refers.clauses group member clause listed
    obtain ⟨params, body, rest, children, _, bodyShaped⟩ :=
      (shaped.of_child isForm).exists_pair (by rw [isFunction]; rfl)
    refine ⟨body, Node.childAt_eq_ok (by rw [children]; rfl), ?_, bodyShaped⟩
    rw [Clause.body?, children]
  constructor
  · apply Outcome.mapM_eq_ok_filterMap
    intro clause listed
    obtain ⟨body, read, plain, _⟩ := clauseRead clause listed
    exact ⟨body, read, plain⟩
  · intro body bodyMember
    obtain ⟨clause, listed, plain⟩ := List.mem_filterMap.mp bodyMember
    obtain ⟨other, _, same, otherShaped⟩ := clauseRead clause listed
    rw [plain] at same
    cases same
    exact otherShaped

theorem readSites_eq (shaped : m.IsWellShaped) (refers : scope.RefersTo m)
    (member : group ∈ scope.functions) :
    group.readSites = .ok (group.bodies.flatMap (·.terminals)) ∧
      ∀ site ∈ group.bodies.flatMap (·.terminals), site.IsWellShaped := by
  obtain ⟨bodiesRead, bodiesShaped⟩ := readBodies_eq shaped refers member
  have terminalsRead : group.bodies.mapM Node.readTerminals =
      .ok (group.bodies.map (·.terminals)) :=
    Outcome.mapM_eq_ok_map fun body listed => (bodiesShaped body listed).findsTerminals.reads
  constructor
  · rw [FunctionGroup.readSites, bodiesRead, Outcome.ok_bind, terminalsRead,
      List.flatMap_def]
    rfl
  · intro site siteMember
    obtain ⟨body, listed, isTerminal⟩ := List.mem_flatMap.mp siteMember
    exact (bodiesShaped body listed).findsTerminals.shaped site isTerminal

end Scopes

/-! ## Targets -/

def Target.read (trusted : List String) (scope : ModuleScope) (pattern expression : Node) :
    Reading Target := do
  let called ← expression.readCallTarget
  match called with
  | none => return ⟨pattern, expression, none, 0, none, false, true⟩
  | some (call, arity) =>
    let origin := callOrigin trusted scope call arity
    return ⟨pattern, expression, some call, arity, origin.module, origin.isLocal,
      origin.isResolved⟩

theorem Target.read_eq {trusted : List String} {scope : ModuleScope} {pattern expression : Node}
    (shaped : expression.IsWellShaped) :
    Target.read trusted scope pattern expression =
      .ok (Target.ofExpression trusted scope pattern expression) := by
  rw [Target.read, shaped.readCallTarget_eq, Outcome.ok_bind, Target.ofExpression]
  cases expression.callTarget? with
  | none => rfl
  | some called => rfl

/-- The targets of the clauses of a `with`. -/
def readWithTargets (trusted : List String) (scope : ModuleScope) (n : Node) :
    Reading (List Target) :=
  (n.childrenOfKind .withClause).mapM fun clause => do
    let (pattern, expression) ← clause.readParts
    Target.read trusted scope pattern expression

theorem Target.ofExpression_pattern (trusted : List String) (scope : ModuleScope)
    (pattern expression : Node) :
    (Target.ofExpression trusted scope pattern expression).pattern = pattern := by
  rw [Target.ofExpression]
  cases expression.callTarget? <;> rfl

theorem readWithTargets_eq {trusted : List String} {scope : ModuleScope} {n : Node}
    (shaped : n.IsWellShaped) :
    readWithTargets trusted scope n = .ok (withTargets trusted scope n) ∧
      ∀ target ∈ withTargets trusted scope n, target.pattern.IsWellShaped := by
  have clauseRead : ∀ clause ∈ n.childrenOfKind .withClause, ∃ pattern expression,
      clause.readParts = .ok (pattern, expression) ∧
      clause.branchParts? = some (pattern, expression) ∧
      pattern.IsWellShaped ∧ expression.IsWellShaped := by
    intro clause member
    obtain ⟨isChild, isClause⟩ := List.mem_filter.mp member
    have clauseShaped := shaped.of_child isChild
    obtain ⟨pattern, expression, read, parts, patternMember, expressionMember⟩ :=
      clauseShaped.readParts_eq (by rw [beq_iff_eq.mp isClause]; rfl)
    exact ⟨pattern, expression, read, parts, clauseShaped.of_child patternMember,
      clauseShaped.of_child expressionMember⟩
  constructor
  · apply Outcome.mapM_eq_ok_filterMap
    intro clause member
    obtain ⟨pattern, expression, read, parts, _, expressionShaped⟩ := clauseRead clause member
    refine ⟨Target.ofExpression trusted scope pattern expression, ?_, ?_⟩
    · rw [read, Outcome.ok_bind]
      exact Target.read_eq expressionShaped
    · rw [parts]
      rfl
  · intro target member
    obtain ⟨clause, clauseMember, same⟩ := List.mem_filterMap.mp member
    obtain ⟨pattern, expression, _, parts, patternShaped, _⟩ := clauseRead clause clauseMember
    rw [parts] at same
    cases same
    rw [Target.ofExpression_pattern]
    exact patternShaped

end StyleAudit
