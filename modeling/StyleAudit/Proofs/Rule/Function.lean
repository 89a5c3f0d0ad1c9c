import StyleAudit.Proofs.Rule.Reading
import StyleAudit.Rule.ErrorLocality
import StyleAudit.Rule.Naming
import StyleAudit.Rule.OptionFormat
import StyleAudit.Rule.Tagging

/-!
# Reading functions

The rules about names, options, generic errors and tagged results, with every
look-up of a child by position made in the open. They look at the bodies of the
function that a clause belongs to, and at those of its callers.
-/

namespace StyleAudit

variable {m n : Node} {scope : ModuleScope} {group : FunctionGroup}

theorem mem_of_functionForClause {path : NodePath}
    (found : scope.functionForClause? path = some group) : group ∈ scope.functions := by
  unfold ModuleScope.functionForClause? at found
  split at found
  · exact List.mem_of_find?_eq_some found
  · cases found

/-! ## Names -/

namespace Naming

def readSequential (n : Node) : Reading (List Finding) := do
  let declared ← n.childAt 0
  return numbered declared

def readReturnsBoolean (group : FunctionGroup) : Reading Bool := do
  let sites ← group.readSites
  let areBoolean ← sites.allM Node.readIsBooleanValued
  return !sites.isEmpty && areBoolean

def readPredicate (settings : RuleSettings) (scope : ModuleScope) (site : Site) :
    Reading (List Finding) :=
  match scope.functionForClause? site.path with
  | none => .ok []
  | some group =>
    if site.path = [group.first.position] then do
      let isBoolean ← readReturnsBoolean group
      return misnamed group site.node (predicateProblems settings group.key.name isBoolean)
    else .ok []

theorem readSequential_eq (shaped : n.IsWellShaped) (needsOne : 1 ≤ n.kind.shape.leastChildren) :
    readSequential n = .ok (sequential n) := by
  obtain ⟨declared, rest, children, _⟩ := shaped.exists_first needsOne
  rw [readSequential, Node.childAt_eq_ok (by rw [children]; rfl), Outcome.ok_bind, sequential,
    children]
  rfl

theorem readReturnsBoolean_eq (shaped : m.IsWellShaped) (refers : scope.RefersTo m)
    (member : group ∈ scope.functions) :
    readReturnsBoolean group = .ok (returnsBoolean group) := by
  obtain ⟨sitesRead, sitesShaped⟩ := readSites_eq shaped refers member
  have allRead : (group.bodies.flatMap (·.terminals)).allM Node.readIsBooleanValued =
      .ok ((group.bodies.flatMap (·.terminals)).all (·.isBooleanValued)) :=
    Outcome.allM_eq_ok_all fun site listed => (sitesShaped site listed).readIsBooleanValued_eq
  rw [readReturnsBoolean, sitesRead, Outcome.ok_bind, allRead]
  rfl

theorem readPredicate_eq (shaped : m.IsWellShaped) (refers : scope.RefersTo m)
    (settings : RuleSettings) (site : Site) :
    readPredicate settings scope site = .ok (predicate settings scope site) := by
  rw [readPredicate, predicate]
  cases found : scope.functionForClause? site.path with
  | none => rfl
  | some group =>
      simp only [readReturnsBoolean_eq shaped refers (mem_of_functionForClause found)]
      split <;> rfl

end Naming

/-! ## Options -/

namespace OptionFormat

/-- The parameter takes options as a map; pattern and value of a default and
the sides of a match are looked up. -/
def readTakesOptionMap (names : List String) : Node → Reading Bool
  | ⟨.default, _, _, []⟩ => .error ⟨.default, 0⟩
  | ⟨.default, _, _, [_]⟩ => .error ⟨.default, 1⟩
  | ⟨.default, _, _, pattern :: value :: _⟩ =>
    if value.kind == .map && namesOptions names pattern then .ok true
    else readTakesOptionMap names pattern
  | ⟨.matchExpr, span, attributes, children⟩ => do
    let n : Node := ⟨.matchExpr, span, attributes, children⟩
    let (left, right) ← n.readParts
    return namesOptions names n && (left.kind == .map || right.kind == .map)
  | _ => .ok false
  termination_by structural n => n

def readFindings (names : List String) (n : Node) : Reading (List Finding) := do
  let params ← n.childAt 0
  let body ← n.childAt 1
  let optionMaps ← Reading.filter (readTakesOptionMap names) params.children
  let sites ← body.readTerminals
  return optionMaps.map optionMap ++ (sites.filter (·.isStatusList)).map statusList

theorem readTakesOptionMap_eq (names : List String) (shaped : n.IsWellShaped) :
    readTakesOptionMap names n = .ok (takesOptionMap names n) := by
  induction n using Node.childInduction with
  | step n inductionHypothesis =>
      obtain ⟨kind, span, attributes, children⟩ := n
      cases kind with
      | default =>
          obtain ⟨pattern, value, rest, rfl, patternShaped, _⟩ := shaped.exists_pair rfl
          have patternRead := inductionHypothesis pattern List.mem_cons_self patternShaped
          rw [readTakesOptionMap, takesOptionMap, patternRead]
          cases value.kind == .map && namesOptions names pattern <;> rfl
      | matchExpr =>
          obtain ⟨left, right, rest, rfl, _, _⟩ := shaped.exists_pair rfl
          rfl
      | _ => rfl

theorem readFindings_eq (names : List String) (shaped : n.IsWellShaped)
    (isFunction : n.kind = .function) :
    readFindings names n = .ok (check names n) := by
  obtain ⟨params, body, rest, children, paramsShaped, bodyShaped⟩ :=
    shaped.exists_pair (by rw [isFunction]; rfl)
  have optionMapsRead : Reading.filter (readTakesOptionMap names) params.children =
      .ok (params.children.filter (takesOptionMap names)) :=
    Reading.filter_eq fun param member =>
      readTakesOptionMap_eq names (paramsShaped.of_child member)
  rw [readFindings, Node.childAt_eq_ok (by rw [children]; rfl), Outcome.ok_bind,
    Node.childAt_eq_ok (by rw [children]; rfl), Outcome.ok_bind, optionMapsRead, Outcome.ok_bind,
    bodyShaped.findsTerminals.reads, Outcome.ok_bind, check, children]
  rfl

end OptionFormat

/-! ## Generic errors -/

namespace ErrorLocality

def readFallbackBranches (body : Node) : Reading (List Node) :=
  Reading.filter (fun branch => do
    let pattern ← branch.childAt 0
    return pattern.isDiscarding) ((body.outline isSeparate).flatMap branchesOf)

def readIsGenericError (value : Node) : Reading Bool :=
  match value.kind with
  | .atom => .ok ((value.attr "value").isText "error")
  | .tuple =>
    if value.children.length = 2 then do
      let tag ← value.readTag
      let reason ← value.childAt 1
      return tag == some "error" && reason.kind == .atom
    else .ok false
  | _ => .ok false

def readBranchesOn (error body : Node) : Reading Bool :=
  body.preorder.anyM fun inner =>
    if inner.kind = .branch then do
      let pattern ← inner.childAt 0
      let reduced ← pattern.readReduced
      return reduced.structurallyEqual error
    else .ok false

/-- A caller branches on the error in one of its bodies. -/
def readHandles (scope : ModuleScope) (error : Node) (caller : FunctionKey) : Reading Bool :=
  match scope.function? caller with
  | none => .ok false
  | some group => do
    let bodies ← group.readBodies
    bodies.anyM (readBranchesOn error)

/-- A caller of the function, other than itself, branches on the error. -/
def readIsHandledByCaller (context : ModuleContext) (group : FunctionGroup) (error : Node) :
    Reading Bool :=
  ((context.graph.callers group.key).filter (· != group.key)).anyM
    (readHandles context.scope error)

def readIsUnhandled (context : ModuleContext) (group : FunctionGroup) (branch : Node) :
    Reading Bool := do
  let body ← branch.childAt 1
  match body.singleExpression? with
  | none => return false
  | some produced => do
    let generic ← readIsGenericError produced
    let handled ← readIsHandledByCaller context group produced
    return generic && !handled

def readFindings (context : ModuleContext) (site : Site) : Reading (List Finding) :=
  match context.scope.functionForClause? site.path with
  | none => .ok []
  | some group => do
    let body ← site.node.childAt 1
    let fallbacks ← readFallbackBranches body
    let unhandled ← Reading.filter (readIsUnhandled context group) fallbacks
    return unhandled.map (genericError group)

/-- The branches of a `case` or an `else` have two parts. -/
theorem branches_of_branchesOf (shaped : n.IsWellShaped) :
    ∀ branch ∈ branchesOf n, branch.kind = .branch ∧ branch.IsWellShaped := by
  intro branch member
  rw [branchesOf] at member
  split at member
  · rename_i isCase
    exact shaped.caseBranches isCase branch member
  · rename_i isElse
    exact shaped.branches (by rw [isElse]; rfl) branch member
  · cases member

theorem readFallbackBranches_eq (shaped : n.IsWellShaped) :
    readFallbackBranches n = .ok (fallbackBranches n) ∧
      ∀ branch ∈ fallbackBranches n, branch.kind = .branch ∧ branch.IsWellShaped := by
  have areBranches : ∀ branch ∈ (n.outline isSeparate).flatMap branchesOf,
      branch.kind = .branch ∧ branch.IsWellShaped := by
    intro branch member
    obtain ⟨inner, listed, inInner⟩ := List.mem_flatMap.mp member
    exact branches_of_branchesOf (shaped.of_mem (Node.outline_subset _ n listed)) branch inInner
  constructor
  · apply Reading.filter_eq
    intro branch member
    obtain ⟨isBranch, branchShaped⟩ := areBranches branch member
    obtain ⟨pattern, body, read, _, parts, _, _⟩ := branchShaped.readBranch isBranch
    rw [read, parts]
    rfl
  · intro branch member
    exact areBranches branch (List.mem_of_mem_filter member)

theorem readIsGenericError_eq (shaped : n.IsWellShaped) :
    readIsGenericError n = .ok (isGenericError n) := by
  rw [readIsGenericError, isGenericError]
  cases kind : n.kind with
  | tuple =>
      by_cases isPair : n.children.length = 2
      · obtain ⟨first, reason, children⟩ := List.length_eq_two.mp isPair
        have reasonRead : n.childAt 1 = .ok reason :=
          Node.childAt_eq_ok (by rw [children]; rfl)
        simp only [shaped.readTag_eq, reasonRead, Outcome.ok_bind, children]
        rfl
      · simp only [isPair, if_false]
        split
        · contradiction
        · rename_i first reason _ children
          exact absurd (by rw [children]; rfl) isPair
        · rfl
  | _ => rfl

theorem readBranchesOn_eq (shaped : n.IsWellShaped) (error : Node) :
    readBranchesOn error n = .ok (branchesOn error n) := by
  apply Outcome.anyM_eq_ok_any
  intro inner member
  by_cases isBranch : inner.kind = .branch
  · obtain ⟨pattern, body, read, _, parts, patternShaped, _⟩ :=
      (shaped.of_mem member).readBranch isBranch
    rw [if_pos isBranch, read, Outcome.ok_bind, patternShaped.readReduced_eq, parts, isBranch]
    rfl
  · rw [if_neg isBranch, beq_eq_false_iff_ne.mpr isBranch]
    rfl

theorem readHandles_eq (shaped : m.IsWellShaped) (refers : scope.RefersTo m) (error : Node)
    (caller : FunctionKey) :
    readHandles scope error caller =
      .ok ((scope.function? caller).any fun group => group.bodies.any (branchesOn error)) := by
  rw [readHandles]
  cases found : scope.function? caller with
  | none => rfl
  | some group =>
      have member : group ∈ scope.functions := List.mem_of_find?_eq_some found
      obtain ⟨bodiesRead, bodiesShaped⟩ := readBodies_eq shaped refers member
      simp only [bodiesRead, Outcome.ok_bind]
      exact Outcome.anyM_eq_ok_any fun body listed =>
        readBranchesOn_eq (bodiesShaped body listed) error

section Context

variable {context : ModuleContext}

theorem readIsUnhandled_eq (shaped : m.IsWellShaped) (refers : context.scope.RefersTo m)
    (isBranch : n.kind = .branch) (branchShaped : n.IsWellShaped) :
    readIsUnhandled context group n = .ok (isUnhandled context group n) := by
  obtain ⟨pattern, body, _, read, parts, _, bodyShaped⟩ := branchShaped.readBranch isBranch
  rw [readIsUnhandled, read, Outcome.ok_bind, isUnhandled, parts]
  simp only [Option.bind_some]
  cases single : body.singleExpression? with
  | none => rfl
  | some produced =>
      have producedShaped := bodyShaped.of_singleExpression single
      have handledRead : readIsHandledByCaller context group produced =
          .ok (isHandledByCaller context group produced) :=
        Outcome.anyM_eq_ok_any fun caller _ => readHandles_eq shaped refers produced caller
      simp only [readIsGenericError_eq producedShaped, handledRead, Outcome.ok_bind]
      rfl

theorem readFindings_eq (shaped : m.IsWellShaped) (refers : context.scope.RefersTo m)
    {site : Site} (member : site.node ∈ m.preorder) (isFunction : site.node.kind = .function) :
    readFindings context site = .ok (check context site) := by
  obtain ⟨params, body, rest, children, _, bodyShaped⟩ :=
    (shaped.of_mem member).exists_pair (by rw [isFunction]; rfl)
  rw [readFindings, check]
  cases found : context.scope.functionForClause? site.path with
  | none => rfl
  | some group =>
      obtain ⟨fallbacksRead, areBranches⟩ := readFallbackBranches_eq bodyShaped
      have unhandledRead : Reading.filter (readIsUnhandled context group) (fallbackBranches body) =
          .ok ((fallbackBranches body).filter (isUnhandled context group)) := by
        apply Reading.filter_eq
        intro branch listed
        obtain ⟨isBranch, branchShaped⟩ := areBranches branch listed
        exact readIsUnhandled_eq shaped refers isBranch branchShaped
      rw [Node.childAt_eq_ok (by rw [children]; rfl), children]
      simp only [Outcome.ok_bind, fallbacksRead, unhandledRead]
      rfl

end Context

end ErrorLocality

/-! ## Tagged results -/

namespace Tagging

def readFindings (scope : ModuleScope) (site : Site) : Reading (List Finding) :=
  match scope.functionForClause? site.path with
  | none => .ok []
  | some group =>
    if site.path = [group.first.position] then do
      let sites ← group.readSites
      let judged ← sites.mapM fun returned => do
        let kind ← returned.readReturnKind
        return (returned, kind)
      return judge group site.node judged
    else .ok []

theorem readFindings_eq (shaped : m.IsWellShaped) (refers : scope.RefersTo m) (site : Site) :
    readFindings scope site = .ok (check scope site) := by
  rw [readFindings, check]
  cases found : scope.functionForClause? site.path with
  | none => rfl
  | some group =>
      obtain ⟨sitesRead, sitesShaped⟩ :=
        readSites_eq shaped refers (mem_of_functionForClause found)
      have judgedRead : (returnSites group).mapM (fun returned => do
          let kind ← returned.readReturnKind
          return (returned, kind)) =
            .ok ((returnSites group).map fun returned => (returned, returned.returnKind)) := by
        apply Outcome.mapM_eq_ok_map
        intro returned listed
        rw [(sitesShaped returned listed).readReturnKind_eq]
        rfl
      rw [returnSites] at judgedRead
      simp only [sitesRead, Outcome.ok_bind, judgedRead, returnSites]
      split <;> rfl

end Tagging
end StyleAudit
