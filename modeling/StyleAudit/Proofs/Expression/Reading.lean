import StyleAudit.Expression.Result
import StyleAudit.Proofs.Tree.Accepted
import StyleAudit.Proofs.Tree.Position

/-!
# Reading children by position

Expressions are taken apart by the positions of their children: the sides of a
match, the body of a branch, the call of a pipe. `Node.childAt` is such a look-up,
which fails where there is no child. Each reading below repeats a function of
the same name, without `read`, and makes every look-up in this way. On trees
whose nodes have the shape of their kinds it does not fail, and finds what the
function gives.
-/

namespace StyleAudit

/-- A child that was looked up and is not there. -/
structure Gap where
  kind : Kind
  position : Nat
  deriving DecidableEq, Repr

/-- A computation that looks up children by position. -/
abbrev Reading := Except Gap

/-- Keep the items that a test accepts. -/
def Reading.filter {item : Type} (test : item → Reading Bool) : List item → Reading (List item)
  | [] => .ok []
  | head :: rest => do
    let accepted ← test head
    let others ← Reading.filter test rest
    return if accepted then head :: others else others

/-- A test that never fails filters as the plain test does. -/
theorem Reading.filter_eq {item : Type} {test : item → Reading Bool} {plain : item → Bool}
    {items : List item} (agrees : ∀ given ∈ items, test given = .ok (plain given)) :
    Reading.filter test items = .ok (items.filter plain) := by
  induction items with
  | nil => rfl
  | cons head rest inductionHypothesis =>
      have later := inductionHypothesis fun given member =>
        agrees given (List.mem_cons_of_mem head member)
      rw [Reading.filter, agrees head List.mem_cons_self, later, List.filter_cons]
      rfl

namespace Node

variable {n : Node}

/-- The child at a position. -/
def childAt (n : Node) (position : Nat) : Reading Node :=
  match n.children[position]? with
  | some child => .ok child
  | none => .error ⟨n.kind, position⟩

theorem childAt_eq_ok {position : Nat} {child : Node} (found : n.children[position]? = some child) :
    n.childAt position = .ok child := by
  rw [childAt, found]

theorem IsWellShaped.of_child {child : Node} (shaped : n.IsWellShaped)
    (member : child ∈ n.children) : child.IsWellShaped :=
  shaped.of_mem (mem_preorder_of_mem_children member)

theorem IsWellShaped.of_at? {path : NodePath} {m : Node} (shaped : n.IsWellShaped)
    (reached : n.at? path = some m) : m.IsWellShaped := by
  induction path generalizing n with
  | nil =>
      cases reached
      exact shaped
  | cons position way inductionHypothesis =>
      obtain ⟨child, found, below⟩ := at?_cons_eq_some_iff.mp reached
      exact inductionHypothesis (shaped.of_child (List.mem_of_getElem? found)) below

theorem exists_pair_of_length {ns : List Node} (enough : 2 ≤ ns.length) :
    ∃ left right rest, ns = left :: right :: rest := by
  match ns with
  | left :: right :: rest => exact ⟨left, right, rest, rfl⟩
  | [_] => simp at enough
  | [] => simp at enough

/-- Nodes of a kind that needs two children have two. -/
theorem IsWellShaped.exists_pair (shaped : n.IsWellShaped)
    (needsTwo : n.kind.shape.leastChildren = 2) :
    ∃ left right rest, n.children = left :: right :: rest ∧ left.IsWellShaped ∧
      right.IsWellShaped := by
  have enough := (shaped.fits (mem_preorder_self n)).enough
  rw [needsTwo] at enough
  obtain ⟨left, right, rest, children⟩ := exists_pair_of_length enough
  refine ⟨left, right, rest, children, shaped.of_child ?_, shaped.of_child ?_⟩ <;>
    simp [children]

/-- The first child of a node whose shape asks for a kind there is of that
kind. -/
theorem IsWellShaped.first_kind {kind : Kind} {leading : List (Option Kind)} {first : Node}
    {rest : List Node} (shaped : n.IsWellShaped)
    (leads : n.kind.shape.leading = some kind :: leading) (children : n.children = first :: rest) :
    first.kind = kind := by
  have led := (shaped.fits (mem_preorder_self n)).led
  rw [leads, children] at led
  by_contra isOther
  simp [wrongLeading?, isOther] at led

/-- The second child of a node whose shape asks for a kind there is of that
kind. -/
theorem IsWellShaped.second_kind {first : Option Kind} {kind : Kind} {left right : Node}
    {rest : List Node} (shaped : n.IsWellShaped)
    (leading : n.kind.shape.leading = [first, some kind])
    (children : n.children = left :: right :: rest) : right.kind = kind := by
  have led := (shaped.fits (mem_preorder_self n)).led
  rw [leading, children] at led
  by_contra isOther
  cases first with
  | none => simp [wrongLeading?, isOther] at led
  | some expected =>
      by_cases fits : left.kind = expected <;> simp [wrongLeading?, fits, isOther] at led

/-- Pattern and body of a branch. -/
def readParts (branch : Node) : Reading (Node × Node) := do
  let pattern ← branch.childAt 0
  let body ← branch.childAt 1
  return (pattern, body)

theorem readParts_of_children {left right : Node} {rest : List Node}
    (children : n.children = left :: right :: rest) : n.readParts = .ok (left, right) := by
  rw [readParts, childAt_eq_ok (by rw [children]; rfl), Outcome.ok_bind,
    childAt_eq_ok (by rw [children]; rfl)]
  rfl

theorem IsWellShaped.readParts_eq (shaped : n.IsWellShaped)
    (needsTwo : n.kind.shape.leastChildren = 2) :
    ∃ pattern body, n.readParts = .ok (pattern, body) ∧ n.branchParts? = some (pattern, body) ∧
      pattern ∈ n.children ∧ body ∈ n.children := by
  obtain ⟨pattern, body, rest, children, _, _⟩ := shaped.exists_pair needsTwo
  refine ⟨pattern, body, readParts_of_children children, ?_, ?_, ?_⟩
  · rw [branchParts?, children]
  · simp [children]
  · simp [children]

/-! ## Patterns -/

mutual

/-- The pattern reduced; the sides of a match are looked up. -/
def readReduced : Node → Reading Node
  | ⟨kind, span, attributes, children⟩ =>
    match kind with
    | .matchExpr => do
      let left ← childAt ⟨.matchExpr, span, attributes, children⟩ 0
      let right ← childAt ⟨.matchExpr, span, attributes, children⟩ 1
      if left.kind = .var then return left
      else if right.kind = .var then return right
      else return ⟨.matchExpr, span, attributes, children⟩
    | .tuple => do
      let reduced ← readReducedAll children
      return ⟨.tuple, span, attributes, reduced⟩
    | kind => .ok ⟨kind, span, attributes, children⟩
  termination_by structural n => n

def readReducedAll : List Node → Reading (List Node)
  | [] => .ok []
  | n :: rest => do
    let first ← readReduced n
    let others ← readReducedAll rest
    return first :: others
  termination_by structural ns => ns

end

theorem readReducedAll_eq {ns : List Node}
    (reads : ∀ n ∈ ns, n.readReduced = .ok n.reduced) :
    readReducedAll ns = .ok (reducedAll ns) := by
  induction ns with
  | nil => rfl
  | cons n rest inductionHypothesis =>
      have later := inductionHypothesis fun other member =>
        reads other (List.mem_cons_of_mem n member)
      rw [readReducedAll, reads n List.mem_cons_self, later, reducedAll]
      rfl

/-- Reducing a well-shaped pattern never looks up a child that is missing. -/
theorem IsWellShaped.readReduced_eq (shaped : n.IsWellShaped) :
    n.readReduced = .ok n.reduced := by
  induction n using childInduction with
  | step n inductionHypothesis =>
      have childrenRead : ∀ child ∈ n.children, child.readReduced = .ok child.reduced :=
        fun child member => inductionHypothesis child member (shaped.of_child member)
      obtain ⟨kind, span, attributes, children⟩ := n
      cases kind with
      | matchExpr =>
          obtain ⟨left, right, rest, rfl, _, _⟩ := shaped.exists_pair rfl
          have read : readReduced ⟨.matchExpr, span, attributes, left :: right :: rest⟩ =
              if left.kind = .var then .ok left
              else if right.kind = .var then .ok right
              else .ok ⟨.matchExpr, span, attributes, left :: right :: rest⟩ := rfl
          rw [read, reduced, boundSide?]
          by_cases onLeft : left.kind = .var
          · rw [if_pos onLeft, if_pos onLeft]
            rfl
          · rw [if_neg onLeft, if_neg onLeft]
            by_cases onRight : right.kind = .var
            · rw [if_pos onRight, if_pos onRight]
              rfl
            · rw [if_neg onRight, if_neg onRight]
              rfl
      | tuple =>
          rw [readReduced, readReducedAll_eq childrenRead, reduced]
          rfl
      | _ => rfl

def readIsCatchAll (pattern : Node) : Reading Bool := do
  let reduced ← pattern.readReduced
  return reduced.kind == .var

theorem IsWellShaped.readIsCatchAll_eq (shaped : n.IsWellShaped) :
    n.readIsCatchAll = .ok n.isCatchAll := by
  rw [readIsCatchAll, shaped.readReduced_eq]
  rfl

def readTag (n : Node) : Reading (Option String) := do
  let value ← n.readReduced
  match value.kind with
  | .atom => return some (value.attr "value").plainText
  | .tuple =>
    if value.children.isEmpty then return none
    else do
      let first ← value.childAt 0
      return if first.kind = .atom then some (first.attr "value").plainText else none
  | _ => return none

theorem IsWellShaped.readTag_eq (shaped : n.IsWellShaped) :
    n.readTag = .ok n.tag? := by
  rw [readTag, shaped.readReduced_eq, Outcome.ok_bind, tag?]
  obtain ⟨kind, span, attributes, children⟩ := n.reduced
  cases kind with
  | tuple => cases children <;> rfl
  | _ => rfl

def readIsEcho (branch : Node) : Reading Bool := do
  let (pattern, body) ← branch.readParts
  match body.singleExpression? with
  | none => return false
  | some expression => do
    let reduced ← pattern.readReduced
    return reduced.structurallyEqual expression

theorem IsWellShaped.readIsEcho_eq (shaped : n.IsWellShaped)
    (needsTwo : n.kind.shape.leastChildren = 2) :
    n.readIsEcho = .ok n.isEcho := by
  obtain ⟨pattern, body, read, parts, patternMember, _⟩ := shaped.readParts_eq needsTwo
  rw [readIsEcho, read, Outcome.ok_bind, isEcho, parts]
  cases single : body.singleExpression? with
  | none => simp only [single, Option.any_none]; rfl
  | some expression =>
      simp only [single, Option.any_some]
      rw [(shaped.of_child patternMember).readReduced_eq]
      rfl

mutual

/-- Could the value be matched by the pattern, which is reduced first? -/
def readUnifies : (pattern value : Node) → Reading Bool
  | ⟨kind, span, attributes, children⟩, value => do
    let reduced ← readReduced ⟨kind, span, attributes, children⟩
    if reduced.kind = .var then return true
    else if value.kind.isOpaque then return true
    else match kind with
    -- Every item is reduced on its own, so the items may be those before the reduction.
    | .tuple | .list => do
      let inPairs ← readUnifiesAll children value.children
      return value.kind == kind && inPairs
    | _ => return unifies ⟨kind, span, attributes, children⟩ value
  termination_by structural pattern => pattern

def readUnifiesAll : (patterns values : List Node) → Reading Bool
  | [], [] => .ok true
  | pattern :: patterns, value :: values => do
    let first ← readUnifies pattern value
    let others ← readUnifiesAll patterns values
    return first && others
  | _, _ => .ok false
  termination_by structural patterns => patterns

end

theorem unifies_of_isOpaque {value : Node} (unknown : value.kind.isOpaque = true) :
    n.unifies value = true := by
  obtain ⟨kind, span, attributes, children⟩ := n
  cases kind <;> simp [unifies, unknown]

/-- A pattern that reduces to a variable unifies with everything. -/
theorem unifies_of_reduced_var {value : Node} (catchesAll : n.reduced.kind = .var) :
    n.unifies value = true := by
  obtain ⟨kind, span, attributes, children⟩ := n
  cases kind with
  | var => rfl
  | matchExpr =>
      rw [reduced] at catchesAll
      rw [unifies]
      cases bound : boundSide? children with
      | none =>
          rw [bound] at catchesAll
          cases catchesAll
      | some side => rfl
  | _ => cases catchesAll

theorem readUnifies_def (n value : Node) :
    n.readUnifies value = do
      let reduced ← n.readReduced
      if reduced.kind = .var then return true
      else if value.kind.isOpaque then return true
      else match n.kind with
      | .tuple | .list => do
        let inPairs ← readUnifiesAll n.children value.children
        return value.kind == n.kind && inPairs
      | _ => return n.unifies value := by
  obtain ⟨kind, span, attributes, children⟩ := n
  cases kind <;> rfl

theorem readUnifiesAll_eq {patterns values : List Node}
    (reads : ∀ pattern ∈ patterns, ∀ value,
      pattern.readUnifies value = .ok (pattern.unifies value)) :
    readUnifiesAll patterns values = .ok (unifiesAll patterns values) := by
  induction patterns generalizing values with
  | nil => cases values <;> rfl
  | cons pattern rest inductionHypothesis =>
      cases values with
      | nil => rfl
      | cons value others =>
          rw [readUnifiesAll, reads pattern List.mem_cons_self, unifiesAll,
            inductionHypothesis fun other member =>
              reads other (List.mem_cons_of_mem pattern member)]
          rfl

/-- Unification of a well-shaped pattern never looks up a child that is missing. -/
theorem IsWellShaped.readUnifies_eq (shaped : n.IsWellShaped) (value : Node) :
    n.readUnifies value = .ok (n.unifies value) := by
  induction n using childInduction generalizing value with
  | step n inductionHypothesis =>
      have childrenRead : ∀ child ∈ n.children, ∀ value,
          child.readUnifies value = .ok (child.unifies value) :=
        fun child member => inductionHypothesis child member (shaped.of_child member)
      rw [readUnifies_def, shaped.readReduced_eq, Outcome.ok_bind]
      by_cases catchesAll : n.reduced.kind = .var
      · rw [if_pos catchesAll, unifies_of_reduced_var catchesAll]
        rfl
      · rw [if_neg catchesAll]
        by_cases unknown : value.kind.isOpaque = true
        · rw [if_pos unknown, unifies_of_isOpaque unknown]
          rfl
        · rw [if_neg unknown, readUnifiesAll_eq childrenRead]
          obtain ⟨kind, span, attributes, children⟩ := n
          cases kind with
          | tuple => simp only [unifies, unknown, Bool.false_or]; rfl
          | list => simp only [unifies, unknown, Bool.false_or]; rfl
          | _ => rfl

def readSameShape (pattern other : Node) : Reading Bool := do
  let left ← pattern.readReduced
  let right ← other.readReduced
  return left.kind == .var || right.kind == .var ||
    left.kind == right.kind &&
      match left.kind with
      | .tuple | .list => left.children.length == right.children.length
      | _ => true

theorem IsWellShaped.readSameShape_eq {other : Node} (shaped : n.IsWellShaped)
    (otherShaped : other.IsWellShaped) :
    n.readSameShape other = .ok (n.sameShape other) := by
  rw [readSameShape, shaped.readReduced_eq, Outcome.ok_bind, otherShaped.readReduced_eq]
  rfl

/-! ## Calls and accesses -/

/-- The outermost call of an expression and how many arguments it takes; the
call of a pipe is looked up. -/
def readCallTarget (n : Node) : Reading (Option (Node × Nat)) :=
  match n.kind with
  | .call => return some (n, n.children.length)
  | .pipe => do
    let call ← n.childAt 1
    return some (call, call.children.length + 1)
  | _ => return none

theorem IsWellShaped.readCallTarget_eq (shaped : n.IsWellShaped) :
    n.readCallTarget = .ok n.callTarget? := by
  rw [readCallTarget, callTarget?]
  cases kind : n.kind with
  | pipe =>
      obtain ⟨input, call, rest, children, _, _⟩ := shaped.exists_pair (by rw [kind]; rfl)
      simp only [pipedCall?, kind, children]
      rw [childAt_eq_ok (by rw [children]; rfl)]
      rfl
  | _ => rfl

/-- The call of a call expression or a pipe. -/
def readOuterCall (n : Node) : Reading Node :=
  if n.kind = .pipe then n.childAt 1 else .ok n

theorem IsWellShaped.readOuterCall_eq (shaped : n.IsWellShaped)
    (isCall : n.kind = .call ∨ n.kind = .pipe) :
    ∃ call, n.readOuterCall = .ok call ∧ n.outerCall? = some call := by
  rcases isCall with isCall | isPipe
  · refine ⟨n, ?_, ?_⟩
    · rw [readOuterCall, if_neg (by rw [isCall]; decide)]
    · simp only [outerCall?, isCall]
  · obtain ⟨input, call, rest, children, _, _⟩ := shaped.exists_pair (by rw [isPipe]; rfl)
    refine ⟨call, ?_, ?_⟩
    · rw [readOuterCall, if_pos isPipe, childAt_eq_ok (by rw [children]; rfl)]
    · simp only [outerCall?, pipedCall?, isPipe, children]

/-- The calls of a tree; the call of every pipe that is met is looked up. -/
def readCalls (n : Node) : Reading (List (Node × Nat)) := do
  let pipes := (n.outline (· == .module)).filter (·.kind == .pipe)
  let _ ← pipes.mapM (·.childAt 1)
  return n.calls

/-- Listing the calls of a well-shaped tree never looks up a child that is missing. -/
theorem IsWellShaped.readCalls_eq (shaped : n.IsWellShaped) :
    n.readCalls = .ok n.calls := by
  have allRead : ∀ pipe ∈ (n.outline (· == .module)).filter (·.kind == .pipe),
      ∃ call, pipe.childAt 1 = .ok call := by
    intro pipe member
    obtain ⟨listed, isPipe⟩ := List.mem_filter.mp member
    have pipeShaped := shaped.of_mem (outline_subset _ n listed)
    obtain ⟨input, call, rest, children, _, _⟩ :=
      pipeShaped.exists_pair (by rw [beq_iff_eq.mp isPipe]; rfl)
    exact ⟨call, childAt_eq_ok (by rw [children]; rfl)⟩
  obtain ⟨found, pairs⟩ := Outcome.exists_forall₂_iff.mpr allRead
  rw [readCalls, Outcome.mapM_eq_ok_iff.mpr pairs]
  rfl

/-- The number of hops of an access chain and what it starts from; the base of
an access is looked up. -/
def readAccessChain (accessors : List String) : Node → Reading (Nat × Node)
  | ⟨kind, span, attributes, []⟩ =>
    if kind = .access then .error ⟨.access, 0⟩ else .ok (0, ⟨kind, span, attributes, []⟩)
  | ⟨kind, span, attributes, base :: rest⟩ =>
    let n : Node := ⟨kind, span, attributes, base :: rest⟩
    if kind = .access ∨ kind = .call ∧ accessors.contains n.qualifiedName then do
      let (depth, root) ← readAccessChain accessors base
      return (depth + 1, root)
    else .ok (0, n)
  termination_by structural n => n

theorem IsWellShaped.readAccessChain_eq (shaped : n.IsWellShaped) (accessors : List String) :
    n.readAccessChain accessors = .ok (n.accessChain accessors) := by
  induction n using childInduction with
  | step n inductionHypothesis =>
      obtain ⟨kind, span, attributes, children⟩ := n
      cases children with
      | nil =>
          have notAccess : kind ≠ .access := by
            rintro rfl
            obtain ⟨_, _, _, impossible, _⟩ := shaped.exists_pair rfl
            cases impossible
          rw [readAccessChain, if_neg notAccess, accessChain]
          simp
      | cons base rest =>
          have member : base ∈ (⟨kind, span, attributes, base :: rest⟩ : Node).children :=
            List.mem_cons_self
          have baseRead := inductionHypothesis base member (shaped.of_child member)
          rw [readAccessChain, accessChain, baseRead]
          split <;> rfl

/-- The variable at the root of an access chain, and the length of the chain. -/
def readAccessRoot (n : Node) (accessors : List String) : Reading (Option (String × Nat)) := do
  let (depth, root) ← n.readAccessChain accessors
  return if 0 < depth ∧ root.kind = .var then some (root.name, depth) else none

theorem IsWellShaped.readAccessRoot_eq (shaped : n.IsWellShaped) (accessors : List String) :
    n.readAccessRoot accessors = .ok (n.accessRoot? accessors) := by
  rw [readAccessRoot, shaped.readAccessChain_eq]
  rfl

end Node
end StyleAudit
