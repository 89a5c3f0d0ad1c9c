import StyleAudit.Proofs.Expression.Reading

/-!
# Reading what expressions return

`Node.readTerminals` collects the terminals of a body and looks up the body of
every branch, the alternatives of every `if` and the sides of every match on
the way. On a tree whose nodes have the shape of their kinds no look-up fails,
and the terminals are trees of the same sort (`IsWellShaped.findsTerminals`).
-/

namespace StyleAudit.Node

variable {n : Node}

mutual

def readTerminals : Node → Reading (List Node)
  | ⟨kind, span, attributes, children⟩ =>
    let n : Node := ⟨kind, span, attributes, children⟩
    match kind with
    | .block => readLastTerminals n children
    | .ifExpr => do
      let consequent ← readTerminalsAt ⟨.ifExpr, 1⟩ 1 children
      let alternative ←
        if 2 < children.length then readTerminalsAt ⟨.ifExpr, 2⟩ 2 children else .ok [n]
      return consequent ++ alternative
    | .caseExpr => readCaseTerminals children
    | .condExpr => readArmTerminals children
    | .withExpr => do
      let done ← readDoTerminals children
      let failed ← readElseTerminals n children
      return done ++ failed
    | .matchExpr => do
      let pattern ← n.childAt 0
      let _ ← n.childAt 1
      if pattern.holdsVariable then readTerminalsAt ⟨.matchExpr, 1⟩ 1 children
      else return [pattern]
    | _ => .ok [n]
  termination_by structural n => n

/-- The terminals of the child at a position, or the gap that is there. -/
def readTerminalsAt (gap : Gap) (position : Nat) : List Node → Reading (List Node)
  | [] => .error gap
  | child :: rest =>
    if position = 0 then readTerminals child else readTerminalsAt gap (position - 1) rest
  termination_by structural ns => ns

/-- The terminals of the last expression of a block, if there is one. -/
def readLastTerminals (block : Node) : List Node → Reading (List Node)
  | [] => .ok [block]
  | [last] => readTerminals last
  | _ :: next :: rest => readLastTerminals block (next :: rest)
  termination_by structural ns => ns

def readCaseTerminals : List Node → Reading (List Node)
  | [] => .ok []
  | _ :: arms => readArmTerminals arms
  termination_by structural ns => ns

def readArmTerminals : List Node → Reading (List Node)
  | [] => .ok []
  | ⟨kind, _, _, parts⟩ :: rest => do
    let first ← readTerminalsAt ⟨kind, 1⟩ 1 parts
    let others ← readArmTerminals rest
    return first ++ others
  termination_by structural ns => ns

/-- The terminals of the first block among the children of a `with`. -/
def readDoTerminals : List Node → Reading (List Node)
  | [] => .ok []
  | child :: rest => if child.kind = .block then readTerminals child else readDoTerminals rest
  termination_by structural ns => ns

/-- The terminals of the branches of the first `else` among the children of a
`with`, or the `with` itself. -/
def readElseTerminals (whole : Node) : List Node → Reading (List Node)
  | [] => .ok [whole]
  | ⟨kind, _, _, branches⟩ :: rest =>
    if kind = .elseBlock then readArmTerminals branches else readElseTerminals whole rest
  termination_by structural ns => ns

end

/-! ## The look-ups succeed -/

/-- A reading finds trees whose nodes have the shape of their kinds. -/
structure Finds (read : Reading (List Node)) (found : List Node) : Prop where
  reads : read = .ok found
  shaped : ∀ n ∈ found, n.IsWellShaped

theorem Finds.single (shaped : n.IsWellShaped) : Finds (.ok [n]) [n] where
  reads := rfl
  shaped := by
    intro m member
    rw [List.mem_singleton.mp member]
    exact shaped

/-- Two searches, one after the other, find what both find. -/
theorem Finds.append {first second : Reading (List Node)} {left right : List Node}
    (firstFinds : Finds first left) (secondFinds : Finds second right) :
    Finds (do
      let found ← first
      let others ← second
      return found ++ others) (left ++ right) where
  reads := by
    rw [firstFinds.reads, secondFinds.reads]
    rfl
  shaped := by
    intro m member
    rcases List.mem_append.mp member with here | later
    · exact firstFinds.shaped m here
    · exact secondFinds.shaped m later

theorem finds_lastTerminals {block : Node} {ns : List Node} (blockShaped : block.IsWellShaped)
    (find : ∀ n ∈ ns, Finds n.readTerminals n.terminals) :
    Finds (readLastTerminals block ns) (lastTerminals block ns) := by
  induction ns with
  | nil => exact Finds.single blockShaped
  | cons n rest inductionHypothesis =>
      cases rest with
      | nil => exact find n List.mem_cons_self
      | cons next others =>
          exact inductionHypothesis fun m member => find m (List.mem_cons_of_mem n member)

/-- The bodies of branches are found when those of all nodes below are. -/
theorem finds_armTerminals {arms : List Node}
    (areBranches : ∀ arm ∈ arms, arm.kind = .branch ∧ arm.IsWellShaped)
    (find : ∀ arm ∈ arms, ∀ body ∈ arm.children, Finds body.readTerminals body.terminals) :
    Finds (readArmTerminals arms) (armTerminals arms) := by
  induction arms with
  | nil => exact ⟨rfl, List.forall_mem_nil _⟩
  | cons arm rest inductionHypothesis =>
      obtain ⟨isBranch, shaped⟩ := areBranches arm List.mem_cons_self
      obtain ⟨pattern, body, others, children, _, _⟩ :=
        shaped.exists_pair (by rw [isBranch]; rfl)
      have here := find arm List.mem_cons_self body (by simp [children])
      have later := inductionHypothesis
        (fun other member => areBranches other (List.mem_cons_of_mem arm member))
        (fun other member => find other (List.mem_cons_of_mem arm member))
      obtain ⟨kind, span, attributes, parts⟩ := arm
      cases children
      exact Finds.append here later

theorem finds_doTerminals {ns : List Node}
    (find : ∀ n ∈ ns, Finds n.readTerminals n.terminals) :
    Finds (readDoTerminals ns) (doTerminals ns) := by
  induction ns with
  | nil => exact ⟨rfl, List.forall_mem_nil _⟩
  | cons n rest inductionHypothesis =>
      rw [readDoTerminals, doTerminals]
      split
      · exact find n List.mem_cons_self
      · exact inductionHypothesis fun m member => find m (List.mem_cons_of_mem n member)

/-- The children of a restricted kind are branches. -/
theorem IsWellShaped.branches (shaped : n.IsWellShaped)
    (restricted : n.kind.onlyChildren? = some .branch) :
    ∀ arm ∈ n.children, arm.kind = .branch ∧ arm.IsWellShaped := by
  intro arm member
  have fits := shaped.fits (mem_preorder_self n)
  exact ⟨fits.uniform .branch restricted arm member, shaped.of_child member⟩

/-- What follows the subject of a `case` are branches. -/
theorem IsWellShaped.caseBranches (shaped : n.IsWellShaped) (isCase : n.kind = .caseExpr) :
    ∀ arm ∈ n.children.drop 1, arm.kind = .branch ∧ arm.IsWellShaped := by
  intro arm member
  have armed := (shaped.fits (mem_preorder_self n)).armed isCase
  have isBranch := List.all_eq_true.mp armed arm member
  exact ⟨beq_iff_eq.mp isBranch, shaped.of_child (List.mem_of_mem_drop member)⟩

theorem finds_elseTerminals {whole : Node} {ns : List Node} (wholeShaped : whole.IsWellShaped)
    (shaped : ∀ n ∈ ns, n.IsWellShaped)
    (find : ∀ n ∈ ns, ∀ m ∈ n.preorder, Finds m.readTerminals m.terminals) :
    Finds (readElseTerminals whole ns) (elseTerminals whole ns) := by
  induction ns with
  | nil => exact Finds.single wholeShaped
  | cons n rest inductionHypothesis =>
      have here := shaped n List.mem_cons_self
      have below := find n List.mem_cons_self
      have later := inductionHypothesis
        (fun m member => shaped m (List.mem_cons_of_mem n member))
        (fun m member => find m (List.mem_cons_of_mem n member))
      obtain ⟨kind, span, attributes, branches⟩ := n
      rw [readElseTerminals, elseTerminals]
      split
      · rename_i isElse
        cases isElse
        refine finds_armTerminals (here.branches rfl) fun arm armMember body bodyMember => ?_
        have armBelow : arm ∈ (⟨.elseBlock, span, attributes, branches⟩ : Node).preorder :=
          mem_preorder_of_mem_children armMember
        exact below body (mem_preorder_trans (mem_preorder_of_mem_children bodyMember) armBelow)
      · exact later

/-- All look-ups on the way to the terminals of a node succeed. -/
theorem IsWellShaped.findsTerminals (shaped : n.IsWellShaped) :
    Finds n.readTerminals n.terminals := by
  -- The bodies of branches lie two levels down, so children are not enough.
  induction n using descendantInduction with
  | step n inductionHypothesis =>
      have below : ∀ child ∈ n.children, ∀ m ∈ child.preorder,
          Finds m.readTerminals m.terminals := by
        intro child member m inside
        exact inductionHypothesis child member m inside
          ((shaped.of_child member).of_mem inside)
      have childrenFind : ∀ child ∈ n.children, Finds child.readTerminals child.terminals :=
        fun child member => below child member child (mem_preorder_self child)
      have bodiesFind : ∀ arm ∈ n.children, ∀ body ∈ arm.children,
          Finds body.readTerminals body.terminals :=
        fun arm member body inside => below arm member body (mem_preorder_of_mem_children inside)
      have childrenShaped : ∀ child ∈ n.children, child.IsWellShaped :=
        fun child member => shaped.of_child member
      obtain ⟨kind, span, attributes, children⟩ := n
      cases kind with
      | block => exact finds_lastTerminals shaped childrenFind
      | ifExpr =>
          obtain ⟨condition, consequent, rest, rfl, _, _⟩ := shaped.exists_pair rfl
          have first := childrenFind consequent (by simp)
          cases rest with
          | nil => exact first.append (Finds.single shaped)
          | cons alternative others =>
              exact first.append (childrenFind alternative (by simp))
      | caseExpr =>
          have arms := shaped.caseBranches rfl
          cases children with
          | nil => exact ⟨rfl, List.forall_mem_nil _⟩
          | cons subject arms' =>
              exact finds_armTerminals arms fun arm member =>
                bodiesFind arm (List.mem_cons_of_mem subject member)
      | condExpr => exact finds_armTerminals (shaped.branches rfl) bodiesFind
      | withExpr =>
          exact (finds_doTerminals childrenFind).append
            (finds_elseTerminals shaped childrenShaped below)
      | matchExpr =>
          obtain ⟨pattern, value, rest, rfl, patternShaped, _⟩ := shaped.exists_pair rfl
          have ofValue := childrenFind value (by simp)
          have read : readTerminals ⟨.matchExpr, span, attributes, pattern :: value :: rest⟩ =
              if pattern.holdsVariable then value.readTerminals else .ok [pattern] := rfl
          have plain : terminals ⟨.matchExpr, span, attributes, pattern :: value :: rest⟩ =
              if pattern.holdsVariable then value.terminals else [pattern] := rfl
          rw [read, plain]
          split
          · exact ofValue
          · exact Finds.single patternShaped
      | _ => exact Finds.single shaped

/-! ## Kinds of return sites -/

def readReturnTag (n : Node) : Reading (Option String) :=
  if n.kind = .atom ∨ n.kind = .tuple then n.readTag else .ok none

theorem IsWellShaped.readReturnTag_eq (shaped : n.IsWellShaped) :
    n.readReturnTag = .ok (if n.kind = .atom ∨ n.kind = .tuple then n.tag? else none) := by
  rw [readReturnTag]
  split
  · exact shaped.readTag_eq
  · rfl

def readReturnKind (n : Node) : Reading ReturnKind := do
  let tag ← n.readReturnTag
  if tag = some "ok" then return .ok
  else if tag = some "error" then return .error
  else if n.isRaise then return .raise
  else match n.kind with
    | .var | .access | .withExpr => return .unknown
    | .call | .pipe => do
      let call ← n.readOuterCall
      return callReturnKind call
    | _ => return .plain

/-- Judging a well-shaped return site never looks up a child that is missing. -/
theorem IsWellShaped.readReturnKind_eq (shaped : n.IsWellShaped) :
    n.readReturnKind = .ok n.returnKind := by
  rw [readReturnKind, shaped.readReturnTag_eq, Outcome.ok_bind, returnKind]
  generalize (if n.kind = .atom ∨ n.kind = .tuple then n.tag? else none) = tag
  split
  · rfl
  · split
    · rfl
    · split
      · rfl
      · cases kind : n.kind with
        | call =>
            obtain ⟨call, read, outer⟩ := shaped.readOuterCall_eq (Or.inl kind)
            simp only [read, outer]
            rfl
        | pipe =>
            obtain ⟨call, read, outer⟩ := shaped.readOuterCall_eq (Or.inr kind)
            simp only [read, outer]
            rfl
        | _ => rfl

def readIsBooleanValued (n : Node) : Reading Bool :=
  match n.kind with
  | .call | .pipe => do
    let call ← n.readOuterCall
    return promisesBoolean call
  | _ => return n.isBooleanValued

theorem IsWellShaped.readIsBooleanValued_eq (shaped : n.IsWellShaped) :
    n.readIsBooleanValued = .ok n.isBooleanValued := by
  rw [readIsBooleanValued]
  cases kind : n.kind with
  | call =>
      obtain ⟨call, read, outer⟩ := shaped.readOuterCall_eq (Or.inl kind)
      simp only [isBooleanValued, kind, read, outer]
      rfl
  | pipe =>
      obtain ⟨call, read, outer⟩ := shaped.readOuterCall_eq (Or.inr kind)
      simp only [isBooleanValued, kind, read, outer]
      rfl
  | _ => rfl

end StyleAudit.Node
