import StyleAudit.Proofs.Rule.Reading
import StyleAudit.Rule.ErrorMapping
import StyleAudit.Rule.WithElse

/-!
# Reading `with` and `case`

The rules about the `else` of a `with` and about errors of other modules, with
every look-up of a child by position made in the open. On nodes of a module
whose scope was built they find what the rules find.
-/

namespace StyleAudit

variable {trusted : List String} {m n : Node} {scope : ModuleScope}

/-- The branches of an `else` of a `with` have two parts. -/
theorem Node.IsWellShaped.elseBranches (shaped : n.IsWellShaped) :
    ∀ branch ∈ (elseBranches? n).getD [], branch.kind = .branch ∧ branch.IsWellShaped := by
  intro branch member
  cases found : n.childOfKind? .elseBlock with
  | none =>
      rw [elseBranches?, found] at member
      cases member
  | some elseBlock =>
      rw [elseBranches?, found] at member
      have isElse := Node.kind_of_childOfKind? found
      have elseShaped := shaped.of_child (List.mem_of_find?_eq_some found)
      exact elseShaped.branches (by rw [isElse]; rfl) branch member

namespace WithElse

def readCoverage (trusted : List String) (scope : ModuleScope) (n : Node) :
    Reading (List Finding) :=
  if (n.childOfKind? .elseBlock).isSome then .ok []
  else do
    let targets ← readWithTargets trusted scope n
    return uncovered n targets

def readRedundancy (trusted : List String) (scope : ModuleScope) (n : Node) :
    Reading (List Finding) :=
  match n.childOfKind? .elseBlock with
  | none => .ok []
  | some elseBlock => do
    let targets ← readWithTargets trusted scope n
    let echoes ← elseBlock.children.allM Node.readIsEcho
    return if !elseBlock.children.isEmpty && targets.all (·.isResolved) && echoes then
      [superfluous elseBlock] else []

theorem readCoverage_eq (shaped : n.IsWellShaped) :
    readCoverage trusted scope n = .ok (coverage trusted scope n) := by
  rw [readCoverage, coverage]
  split
  · rfl
  · rw [(readWithTargets_eq shaped).1]
    rfl

theorem readRedundancy_eq (shaped : n.IsWellShaped) :
    readRedundancy trusted scope n = .ok (redundancy trusted scope n) := by
  rw [readRedundancy, redundancy]
  have areBranches := shaped.elseBranches
  rw [elseBranches?] at areBranches
  cases found : n.childOfKind? .elseBlock with
  | none => rfl
  | some elseBlock =>
      rw [found] at areBranches
      have echoesRead : elseBlock.children.allM Node.readIsEcho =
          .ok (elseBlock.children.all (·.isEcho)) := by
        apply Outcome.allM_eq_ok_all
        intro branch member
        obtain ⟨isBranch, branchShaped⟩ := areBranches branch member
        exact branchShaped.readIsEcho_eq (by rw [isBranch]; rfl)
      simp only [(readWithTargets_eq shaped).1, Outcome.ok_bind, echoesRead]
      rfl

/-! ## The order of branches -/

/-- The values a clause can produce, where they are known. -/
def readKnownSites (scope : ModuleScope) (target : Target) : Reading (Option (List Node)) :=
  match target.call with
  | none => .ok (if target.expression.kind.isOpaque then none else some [target.expression])
  | some call =>
    if target.isLocal then
      match scope.resolve? ⟨call.name, target.arity⟩ with
      | none => .ok none
      | some group => do
        let sites ← group.readSites
        let known := sites.filter fun site => !site.kind.isOpaque && site.kind != .withExpr
        return if known.isEmpty then none else some known
    else .ok none

/-- The known values that are not matched by the clause's own pattern. -/
def readFailureSites (scope : ModuleScope) (target : Target) : Reading (Option (List Node)) := do
  let known ← readKnownSites scope target
  match known with
  | none => return none
  | some sites => do
    let failures ← Reading.filter (fun site => do
      let matched ← target.pattern.readUnifies site
      return !matched) sites
    return some failures

/-- A pattern can handle a failure of a clause with these failure sites. -/
def readCanHandle (pattern : Node) (target : Target) (failures : Option (List Node)) :
    Reading Bool :=
  match failures with
  | none => pattern.readSameShape target.pattern
  | some sites => sites.anyM pattern.readUnifies

def readClauseIndex (clauses : List (Target × Option (List Node))) (branch : Node) :
    Reading (Option Nat) := do
  let pattern ← branch.childAt 0
  let catchesAll ← pattern.readIsCatchAll
  if catchesAll then return none
  else do
    let handles ← clauses.mapM fun (target, failures) => readCanHandle pattern target failures
    return handles.findIdx? id

def readFirstInversion (readIndex : Node → Reading (Option Nat)) (highest : Option Nat) :
    List Node → Reading (Option (Node × Nat × Nat))
  | [] => .ok none
  | branch :: rest => do
    let index ← readIndex branch
    match index, highest with
    | none, _ => readFirstInversion readIndex highest rest
    | some index, none => readFirstInversion readIndex (some index) rest
    | some index, some high =>
      if index < high then return some (branch, index, high)
      else readFirstInversion readIndex (some index) rest

def readOrder (trusted : List String) (scope : ModuleScope) (n : Node) :
    Reading (List Finding) := do
  let targets ← readWithTargets trusted scope n
  let clauses ← targets.mapM fun target => do
    let failures ← readFailureSites scope target
    return (target, failures)
  let inversion ← readFirstInversion (readClauseIndex clauses) none ((elseBranches? n).getD [])
  return (inversion.map misplaced).toList

/-- What is known of a clause is found, and only the values that its pattern
matches are left out. -/
theorem readKnownSites_eq (shaped : m.IsWellShaped) (refers : scope.RefersTo m) (target : Target) :
    ∃ known, readKnownSites scope target = .ok known ∧
      failureSites? scope target =
        known.map fun sites => sites.filter fun site => !target.pattern.unifies site := by
  rw [readKnownSites, failureSites?]
  cases target.call with
  | none => exact ⟨_, rfl, rfl⟩
  | some call =>
      cases target.isLocal with
      | false => exact ⟨none, rfl, rfl⟩
      | true =>
          cases resolved : scope.resolve? ⟨call.name, target.arity⟩ with
          | none =>
              simp only [resolved]
              exact ⟨none, rfl, rfl⟩
          | some group =>
              have member : group ∈ scope.functions := mem_of_resolveIn resolved
              simp only [resolved, if_true, (readSites_eq shaped refers member).1,
                Outcome.ok_bind]
              exact ⟨_, rfl, rfl⟩

theorem readFailureSites_eq (shaped : m.IsWellShaped) (refers : scope.RefersTo m)
    {target : Target} (patternShaped : target.pattern.IsWellShaped) :
    readFailureSites scope target = .ok (failureSites? scope target) := by
  obtain ⟨known, read, same⟩ := readKnownSites_eq shaped refers target
  rw [readFailureSites, read, Outcome.ok_bind, same]
  cases known with
  | none => rfl
  | some sites =>
      have filtered : Reading.filter (fun site => do
          let matched ← target.pattern.readUnifies site
          return !matched) sites =
            .ok (sites.filter fun site => !target.pattern.unifies site) := by
        apply Reading.filter_eq
        intro site _
        rw [patternShaped.readUnifies_eq]
        rfl
      simp only [filtered]
      rfl

theorem readCanHandle_eq {pattern : Node} {target : Target} (shaped : pattern.IsWellShaped)
    (targetShaped : target.pattern.IsWellShaped) :
    readCanHandle pattern target (failureSites? scope target) =
      .ok (canHandle scope pattern target) := by
  unfold readCanHandle canHandle
  cases failureSites? scope target with
  | none => exact shaped.readSameShape_eq targetShaped
  | some sites => exact Outcome.anyM_eq_ok_any fun site _ => shaped.readUnifies_eq site

theorem readClauseIndex_eq {targets : List Target} {branch : Node}
    (targetsShaped : ∀ target ∈ targets, target.pattern.IsWellShaped)
    (isBranch : branch.kind = .branch) (shaped : branch.IsWellShaped) :
    readClauseIndex (targets.map fun target => (target, failureSites? scope target)) branch =
      .ok (clauseIndex? scope targets branch) := by
  obtain ⟨pattern, body, read, _, parts, patternShaped, _⟩ := shaped.readBranch isBranch
  have handlesRead : (targets.map fun target => (target, failureSites? scope target)).mapM
      (fun (target, failures) => readCanHandle pattern target failures) =
        .ok (targets.map (canHandle scope pattern)) := by
    rw [List.mapM_map]
    exact Outcome.mapM_eq_ok_map fun target listed =>
      readCanHandle_eq patternShaped (targetsShaped target listed)
  rw [readClauseIndex, read, Outcome.ok_bind, patternShaped.readIsCatchAll_eq, Outcome.ok_bind,
    clauseIndex?, parts]
  by_cases catchesAll : pattern.isCatchAll = true
  · simp only [catchesAll, if_true]
    rfl
  · simp only [catchesAll, handlesRead, Outcome.ok_bind, List.findIdx?_map]
    rfl

/-- The search for an inversion looks up what the plain one does, if the look-up of
each index does. -/
theorem readFirstInversion_eq {readIndex : Node → Reading (Option Nat)}
    {index? : Node → Option Nat} {highest : Option Nat} {branches : List Node}
    (reads : ∀ branch ∈ branches, readIndex branch = .ok (index? branch)) :
    readFirstInversion readIndex highest branches =
      .ok (firstInversion? index? highest branches) := by
  induction branches generalizing highest with
  | nil => rfl
  | cons branch rest inductionHypothesis =>
      have later : ∀ other ∈ rest, readIndex other = .ok (index? other) :=
        fun other member => reads other (List.mem_cons_of_mem branch member)
      rw [readFirstInversion, reads branch List.mem_cons_self, Outcome.ok_bind, firstInversion?]
      cases index? branch with
      | none => exact inductionHypothesis later
      | some index =>
          cases highest with
          | none => exact inductionHypothesis later
          | some high =>
              by_cases before : index < high
              · simp only [before, if_true]
                rfl
              · simp only [before, if_false]
                exact inductionHypothesis later

/-- The judgement of the order of branches never looks up a child that is missing. -/
theorem readOrder_eq (shaped : m.IsWellShaped) (refers : scope.RefersTo m)
    (member : n ∈ m.preorder) :
    readOrder trusted scope n = .ok (order trusted scope n) := by
  have nodeShaped := shaped.of_mem member
  have ⟨targetsRead, targetsShaped⟩ :
      readWithTargets trusted scope n = .ok (withTargets trusted scope n) ∧
        ∀ target ∈ withTargets trusted scope n, target.pattern.IsWellShaped :=
    readWithTargets_eq nodeShaped
  have clausesRead : ((withTargets trusted scope n).mapM fun target => do
      let failures ← readFailureSites scope target
      return (target, failures)) =
        .ok ((withTargets trusted scope n).map fun target =>
          (target, failureSites? scope target)) := by
    apply Outcome.mapM_eq_ok_map
    intro target listed
    rw [readFailureSites_eq shaped refers (targetsShaped target listed)]
    rfl
  rw [readOrder, targetsRead, Outcome.ok_bind, clausesRead, Outcome.ok_bind,
    readFirstInversion_eq fun branch branchMember =>
      have branchIs := nodeShaped.elseBranches branch branchMember
      readClauseIndex_eq targetsShaped branchIs.1 branchIs.2]
  rfl

end WithElse

/-! ## Errors of other modules -/

namespace ErrorMapping

/-- The branches of a `with` or `case`, and the targets their values come from. -/
def readBranchesAndTargets (trusted : List String) (scope : ModuleScope) (n : Node) :
    Reading (List Node × List Target) :=
  if n.kind = .withExpr then do
    let targets ← readWithTargets trusted scope n
    return ((elseBranches? n).getD [], targets)
  else do
    let subject ← n.childAt 0
    let target ← Target.read trusted scope subject subject
    return (n.children.drop 1, [target])

def readEchoedTag (branch : Node) : Reading (Option String) := do
  let pattern ← branch.childAt 0
  let tag ← pattern.readTag
  let echoes ← branch.readIsEcho
  return match tag with
    | some tag => if tag ≠ "ok" ∧ echoes then some tag else none
    | none => none

def readFindings (trusted : List String) (scope : ModuleScope) (n : Node) :
    Reading (List Finding) := do
  let (branches, targets) ← readBranchesAndTargets trusted scope n
  match targets.filter (·.isForeign) with
  | [] => return []
  | origin :: _ => do
    let tags ← branches.mapM fun branch => do
      let tag ← readEchoedTag branch
      return tag.map (passedThrough origin branch)
    return tags.filterMap id

theorem readBranchesAndTargets_eq (shaped : n.IsWellShaped)
    (isHandled : n.kind = .caseExpr ∨ n.kind = .withExpr) :
    readBranchesAndTargets trusted scope n = .ok (branchesAndTargets trusted scope n) ∧
      ∀ branch ∈ (branchesAndTargets trusted scope n).1,
        branch.kind = .branch ∧ branch.IsWellShaped := by
  rw [readBranchesAndTargets, branchesAndTargets]
  rcases isHandled with isCase | isWith
  · have notWith : ¬n.kind = .withExpr := by
      rw [isCase]
      decide
    rw [if_neg notWith, if_neg notWith]
    refine ⟨?_, shaped.caseBranches isCase⟩
    obtain ⟨subject, rest, children, subjectShaped⟩ :=
      shaped.exists_first (by rw [isCase]; decide)
    rw [Node.childAt_eq_ok (by rw [children]; rfl), Outcome.ok_bind,
      Target.read_eq subjectShaped, caseTarget?, children]
    rfl
  · rw [if_pos isWith, if_pos isWith, (readWithTargets_eq shaped).1]
    exact ⟨rfl, shaped.elseBranches⟩

theorem readEchoedTag_eq (isBranch : n.kind = .branch) (shaped : n.IsWellShaped) :
    readEchoedTag n = .ok (echoedTag? n) := by
  obtain ⟨pattern, body, read, _, parts, patternShaped, _⟩ := shaped.readBranch isBranch
  rw [readEchoedTag, read, Outcome.ok_bind, patternShaped.readTag_eq, Outcome.ok_bind,
    shaped.readIsEcho_eq (by rw [isBranch]; rfl), Outcome.ok_bind, echoedTag?, parts]
  rfl

theorem readFindings_eq (shaped : n.IsWellShaped)
    (isHandled : n.kind = .caseExpr ∨ n.kind = .withExpr) :
    readFindings trusted scope n = .ok (check trusted scope n) := by
  have ⟨read, areBranches⟩ :
      readBranchesAndTargets trusted scope n = .ok (branchesAndTargets trusted scope n) ∧
        ∀ branch ∈ (branchesAndTargets trusted scope n).1,
          branch.kind = .branch ∧ branch.IsWellShaped :=
    readBranchesAndTargets_eq shaped isHandled
  rw [readFindings, read, check]
  generalize branchesAndTargets trusted scope n = found at areBranches
  obtain ⟨branches, targets⟩ := found
  have tagsRead (origin : Target) : (branches.mapM fun branch => do
      let tag ← readEchoedTag branch
      return tag.map (passedThrough origin branch)) =
        .ok (branches.map fun branch => (echoedTag? branch).map (passedThrough origin branch)) := by
    apply Outcome.mapM_eq_ok_map
    intro branch member
    obtain ⟨isBranch, branchShaped⟩ := areBranches branch member
    rw [readEchoedTag_eq isBranch branchShaped]
    rfl
  simp only [Outcome.ok_bind]
  cases targets.filter (·.isForeign) with
  | nil => rfl
  | cons origin others =>
      simp only [tagsRead origin, Outcome.ok_bind, List.filterMap_map]
      rfl

end ErrorMapping
end StyleAudit
