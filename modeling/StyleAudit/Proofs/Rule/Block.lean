import StyleAudit.Proofs.Rule.Reading
import StyleAudit.Rule.Extraction
import StyleAudit.Rule.Flow
import StyleAudit.Rule.NestedUpdate

/-!
# Reading conditionals and blocks

The rules about conditionals that only forward, successive field extractions
and manual nested updates, with every look-up of a child by position made in
the open.
-/

namespace StyleAudit

variable {n : Node} {expressions : List Node}

/-! ## Conditionals -/

namespace Flow

/-- All but one of at least two branches are echoes, and that one is a
conditional; the body of that one is looked up. -/
def readIsFlattenableCase (branches : List Node) : Reading Bool := do
  let working ← Reading.filter (fun branch => do
    let echoes ← branch.readIsEcho
    return !echoes) branches
  match working with
  | [only] => do
    let body ← only.childAt 1
    return decide (2 ≤ branches.length) && isDispatch body
  | _ => return false

def readIsFlattenable (n : Node) : Reading Bool :=
  if n.kind = .ifExpr then
    if n.children.length = 2 then do
      let consequent ← n.childAt 1
      return isDispatch consequent
    else .ok false
  else readIsFlattenableCase (n.children.drop 1)

def readDirectiveChoice (n : Node) : Reading (List Finding) := do
  let flattenable ← readIsFlattenable n
  return if flattenable then [forwarding n] else []

theorem readIsFlattenableCase_eq {branches : List Node}
    (areBranches : ∀ branch ∈ branches, branch.kind = .branch ∧ branch.IsWellShaped) :
    readIsFlattenableCase branches = .ok (isFlattenableCase branches) := by
  have workingRead : Reading.filter (fun branch => do
      let echoes ← branch.readIsEcho
      return !echoes) branches = .ok (branches.filter fun branch => !branch.isEcho) := by
    apply Reading.filter_eq
    intro branch member
    obtain ⟨isBranch, shaped⟩ := areBranches branch member
    rw [shaped.readIsEcho_eq (by rw [isBranch]; rfl)]
    rfl
  have inBranches : ∀ branch ∈ branches.filter fun branch => !branch.isEcho,
      branch ∈ branches := fun branch member => List.mem_of_mem_filter member
  unfold readIsFlattenableCase isFlattenableCase
  rw [workingRead, Outcome.ok_bind]
  generalize (branches.filter fun branch => !branch.isEcho) = working at inBranches
  match working with
  | [] => rfl
  | [only] =>
      obtain ⟨isBranch, shaped⟩ := areBranches only (inBranches only (List.mem_singleton_self only))
      obtain ⟨pattern, body, _, read, parts, _, _⟩ := shaped.readBranch isBranch
      simp only [read, parts, Outcome.ok_bind, Option.any_some]
      rfl
  | _ :: _ :: _ => rfl

theorem readIsFlattenable_eq (shaped : n.IsWellShaped)
    (isHandled : n.kind = .caseExpr ∨ n.kind = .ifExpr) :
    readIsFlattenable n = .ok (isFlattenable n) := by
  rw [readIsFlattenable]
  rcases isHandled with isCase | isIf
  · have notIf : ¬n.kind = .ifExpr := by
      rw [isCase]
      decide
    obtain ⟨subject, branches, children, _⟩ := shaped.exists_first (by rw [isCase]; decide)
    have areBranches := shaped.caseBranches isCase
    rw [children] at areBranches
    rw [if_neg notIf, children, readIsFlattenableCase_eq areBranches]
    simp only [isFlattenable, isCase, children]
    rfl
  · obtain ⟨condition, consequent, rest, children, _, _⟩ :=
      shaped.exists_pair (by rw [isIf]; rfl)
    rw [if_pos isIf, Node.childAt_eq_ok (by rw [children]; rfl), children]
    cases rest with
    | nil =>
        simp only [isFlattenable, isIf, children]
        rfl
    | cons alternative others =>
        simp only [isFlattenable, isIf, children]
        rfl

theorem readDirectiveChoice_eq (shaped : n.IsWellShaped)
    (isHandled : n.kind = .caseExpr ∨ n.kind = .ifExpr) :
    readDirectiveChoice n = .ok (directiveChoice n) := by
  rw [readDirectiveChoice, readIsFlattenable_eq shaped isHandled]
  rfl

end Flow

/-! ## Extractions -/

namespace Extraction

/-- The variable bound and the variable it is extracted from; the sides of a
match are looked up. -/
def readExtraction (expression : Node) : Reading (Option (String × String)) :=
  if expression.kind = .matchExpr then do
    let (pattern, value) ← expression.readParts
    if pattern.kind = .var then do
      let root ← value.readAccessRoot fieldAccessors
      return root.map fun (base, _) => (pattern.name, base)
    else return none
  else .ok none

def readScan (current : Option Run) : List Node → Reading (List Finding)
  | [] => .ok (closeRun current)
  | expression :: rest => do
    let extraction ← readExtraction expression
    match extraction, current with
    | none, _ => do
      let later ← readScan none rest
      return closeRun current ++ later
    | some (name, base), some run =>
      if run.roots.contains base then
        readScan (some ⟨run.first, run.length + 1, name :: run.roots⟩) rest
      else do
        let later ← readScan (some ⟨expression, 1, [name, base]⟩) rest
        return run.finding ++ later
    | some (name, base), none => readScan (some ⟨expression, 1, [name, base]⟩) rest

theorem readExtraction_eq (shaped : n.IsWellShaped) :
    readExtraction n = .ok (extraction? n) := by
  rw [readExtraction]
  by_cases isMatch : n.kind = .matchExpr
  · obtain ⟨pattern, value, rest, children, _, valueShaped⟩ :=
      shaped.exists_pair (by rw [isMatch]; rfl)
    rw [if_pos isMatch, Node.readParts_of_children children, Outcome.ok_bind]
    simp only [extraction?, isMatch, children, valueShaped.readAccessRoot_eq, Outcome.ok_bind]
    split <;> rfl
  · rw [if_neg isMatch]
    obtain ⟨kind, span, attributes, children⟩ := n
    cases kind with
    | matchExpr => exact absurd rfl isMatch
    | _ => rfl

/-- By induction on the expressions: the search for runs never looks up a child that
is missing. -/
theorem readScan_eq {current : Option Run}
    (shaped : ∀ expression ∈ expressions, expression.IsWellShaped) :
    readScan current expressions = .ok (scan current expressions) := by
  induction expressions generalizing current with
  | nil => rfl
  | cons expression rest inductionHypothesis =>
      have restShaped : ∀ other ∈ rest, other.IsWellShaped := fun other member =>
        shaped other (List.mem_cons_of_mem expression member)
      have later : ∀ current, readScan current rest = .ok (scan current rest) := fun _ =>
        inductionHypothesis restShaped
      unfold readScan scan
      rw [readExtraction_eq (shaped expression List.mem_cons_self), Outcome.ok_bind]
      cases extraction? expression with
      | none =>
          simp only [later]
          rfl
      | some found =>
          cases current with
          | none => exact later _
          | some run =>
              by_cases continued : run.roots.contains found.2 = true
              · simp only [continued, if_true, later]
              · simp only [continued, Bool.false_eq_true, if_false, later]
                rfl

end Extraction

/-! ## Nested updates -/

namespace NestedUpdate

/-- The base and the key of a read. -/
def readSourceParts (source : Node) : Reading (Option (Node × Node)) :=
  if source.kind = .access ∨ source.kind = .call ∧ pathReaders.contains source.qualifiedName
      ∧ 2 ≤ source.children.length then do
    let parts ← source.readParts
    return some parts
  else .ok none

def readPathParts (value : Node) : Reading (Option (Node × Node)) :=
  if value.kind = .call ∧ (value.attr "module").isTextIn containerModules
      ∧ updateFunctions.contains value.name ∧ 0 < value.children.length then do
    let source ← value.childAt 0
    readSourceParts source
  else .ok none

def readValueOf (expression : Node) : Reading Node :=
  if expression.kind = .matchExpr then expression.childAt 1 else .ok expression

def readIsInline (value : Node) : Reading Bool :=
  if value.kind = .call ∧ value.children.length = 3 then do
    let inner ← value.childAt 2
    let path ← readPathParts inner
    return path.any fun (base, key) => (writtenTo? value base key).isSome
  else .ok false

def readWritesBack (base key : Node) (temporary : String) (expression : Node) : Reading Bool := do
  let value ← readValueOf expression
  return (writtenTo? value base key).any fun written =>
    written.kind == .var && written.name == temporary

/-- The expression binds a changed value that a later one writes back. -/
def readIsTwoStep (expression : Node) (later : List Node) : Reading Bool :=
  if expression.kind = .matchExpr then do
    let (bound, value) ← expression.readParts
    if bound.kind = .var then do
      let path ← readPathParts value
      match path with
      | some (base, key) => later.anyM (readWritesBack base key bound.name)
      | none => return false
    else return false
  else .ok false

def readUpdates : List Node → Reading (List Node)
  | [] => .ok []
  | expression :: later => do
    let value ← readValueOf expression
    let inline ← readIsInline value
    let twoStep ← readIsTwoStep expression later
    let others ← readUpdates later
    return if inline || twoStep then expression :: others else others

def readFindings (n : Node) : Reading (List Finding) := do
  let started ← readUpdates n.children
  return started.map byHand

theorem readSourceParts_eq (shaped : n.IsWellShaped) :
    readSourceParts n = .ok (readSource? n) := by
  rw [readSourceParts, readSource?]
  by_cases enough : 2 ≤ n.children.length
  · obtain ⟨base, key, rest, children⟩ := Node.exists_pair_of_length enough
    simp only [enough, and_true]
    rw [Node.readParts_of_children children, children]
    split <;> rfl
  · have notAccess : n.kind ≠ .access := by
      intro isAccess
      obtain ⟨base, key, rest, children, _, _⟩ := shaped.exists_pair (by rw [isAccess]; rfl)
      exact enough (by simp [children])
    simp only [notAccess, enough, and_false, or_self, if_false]
    split
    · rename_i base key rest children
      exact absurd (by simp [children]) enough
    · rfl

theorem readPathParts_eq (shaped : n.IsWellShaped) :
    readPathParts n = .ok (readPath? n) := by
  rw [readPathParts, readPath?]
  cases children : n.children with
  | nil => simp
  | cons source rest =>
      have sourceShaped : source.IsWellShaped := shaped.of_child (by simp [children])
      rw [Node.childAt_eq_ok (by rw [children]; rfl), Outcome.ok_bind,
        readSourceParts_eq sourceShaped]
      simp only [List.length_cons, Nat.zero_lt_succ, and_true]
      split <;> rfl

theorem readValueOf_eq (shaped : n.IsWellShaped) :
    readValueOf n = .ok (valueOf n) ∧ (valueOf n).IsWellShaped := by
  rw [readValueOf]
  by_cases isMatch : n.kind = .matchExpr
  · obtain ⟨pattern, value, rest, children, _, valueShaped⟩ :=
      shaped.exists_pair (by rw [isMatch]; rfl)
    have isValue : valueOf n = value := by
      simp only [valueOf, isMatch, children]
    rw [if_pos isMatch, isValue, Node.childAt_eq_ok (by rw [children]; rfl)]
    exact ⟨rfl, valueShaped⟩
  · have isSelf : valueOf n = n := by
      obtain ⟨kind, span, attributes, children⟩ := n
      cases kind with
      | matchExpr => exact absurd rfl isMatch
      | _ => rfl
    rw [if_neg isMatch, isSelf]
    exact ⟨rfl, shaped⟩

theorem readIsInline_eq (shaped : n.IsWellShaped) :
    readIsInline n = .ok (isInline n) := by
  rw [readIsInline]
  by_cases isWrite : n.kind = .call ∧ n.children.length = 3
  · obtain ⟨base, key, inner, children⟩ := List.length_eq_three.mp isWrite.2
    have innerShaped : inner.IsWellShaped := shaped.of_child (by simp [children])
    rw [if_pos isWrite, Node.childAt_eq_ok (by rw [children]; rfl), Outcome.ok_bind,
      readPathParts_eq innerShaped]
    simp only [isInline, isWrite.1, children]
    cases readPath? inner <;> rfl
  · rw [if_neg isWrite, isInline]
    split
    · rename_i isCall children
      exact absurd ⟨isCall, by rw [children]; rfl⟩ isWrite
    · rfl

theorem readWritesBack_eq (shaped : n.IsWellShaped) (base key : Node) (temporary : String) :
    readWritesBack base key temporary n = .ok (writesBack base key temporary n) := by
  rw [readWritesBack, (readValueOf_eq shaped).1]
  rfl

/-- The search for updates in two steps never looks up a child that is missing. -/
theorem readIsTwoStep_eq {later : List Node} (shaped : n.IsWellShaped)
    (laterShaped : ∀ other ∈ later, other.IsWellShaped) :
    readIsTwoStep n later = .ok (isTwoStep n later) := by
  rw [readIsTwoStep]
  by_cases isMatch : n.kind = .matchExpr
  · obtain ⟨bound, value, rest, children, _, valueShaped⟩ :=
      shaped.exists_pair (by rw [isMatch]; rfl)
    rw [if_pos isMatch, Node.readParts_of_children children, Outcome.ok_bind]
    simp only [isTwoStep, isMatch, children, readPathParts_eq valueShaped, Outcome.ok_bind]
    by_cases isVariable : bound.kind = .var
    · rw [if_pos isVariable, isVariable, beq_self_eq_true, Bool.true_and]
      cases readPath? value with
      | none => rfl
      | some path =>
          exact Outcome.anyM_eq_ok_any fun other member =>
            readWritesBack_eq (laterShaped other member) path.1 path.2 bound.name
    · rw [if_neg isVariable, beq_eq_false_iff_ne.mpr isVariable]
      rfl
  · rw [if_neg isMatch, isTwoStep]
    split
    · rename_i isOne _
      exact absurd isOne isMatch
    · rfl

theorem readUpdates_eq (shaped : ∀ expression ∈ expressions, expression.IsWellShaped) :
    readUpdates expressions = .ok (updates expressions) := by
  induction expressions with
  | nil => rfl
  | cons expression later inductionHypothesis =>
      have here := shaped expression List.mem_cons_self
      have laterShaped : ∀ other ∈ later, other.IsWellShaped := fun other member =>
        shaped other (List.mem_cons_of_mem expression member)
      obtain ⟨valueRead, valueShaped⟩ := readValueOf_eq here
      rw [readUpdates, valueRead, Outcome.ok_bind, readIsInline_eq valueShaped, Outcome.ok_bind,
        readIsTwoStep_eq here laterShaped, Outcome.ok_bind, inductionHypothesis laterShaped,
        updates]
      split <;> rfl

theorem readFindings_eq (shaped : n.IsWellShaped) :
    readFindings n = .ok (check n) := by
  rw [readFindings, readUpdates_eq fun _ member => shaped.of_child member]
  rfl

end NestedUpdate
end StyleAudit
