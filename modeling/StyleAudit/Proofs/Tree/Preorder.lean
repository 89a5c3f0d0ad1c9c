import StyleAudit.Tree.Node

/-!
# The nodes of a tree

A property of all trees is proved from the children of a node
(`Node.childInduction`). `Node.mem_preorder_iff` reads the list of nodes of a
tree as its root and the nodes of the children, so that the nodes of a subtree
are nodes of the tree.
-/

namespace StyleAudit.Node

/-- What holds of a node whenever it holds of its children holds of every
tree. -/
theorem childInduction {motive : Node → Prop}
    (step : ∀ n : Node, (∀ child ∈ n.children, motive child) → motive n) :
    ∀ n : Node, motive n
  | ⟨kind, span, attributes, children⟩ =>
    step ⟨kind, span, attributes, children⟩ fun child (_member : child ∈ children) =>
      childInduction step child
termination_by n => sizeOf n
decreasing_by
  have smaller := List.sizeOf_lt_of_mem _member
  simp only [Node.mk.sizeOf_spec]
  omega

theorem kind_of_childOfKind? {n child : Node} {kind : Kind}
    (found : n.childOfKind? kind = some child) : child.kind = kind := by
  simpa using List.find?_some found

theorem mem_preorder_iff {m n : Node} :
    m ∈ n.preorder ↔ m = n ∨ ∃ child ∈ n.children, m ∈ child.preorder := by
  rw [preorder_eq, List.mem_cons, List.mem_flatMap]

theorem mem_preorder_self (n : Node) : n ∈ n.preorder :=
  mem_preorder_iff.mpr (Or.inl rfl)

theorem mem_preorder_of_mem_children {child n : Node}
    (member : child ∈ n.children) : child ∈ n.preorder :=
  mem_preorder_iff.mpr (Or.inr ⟨child, member, mem_preorder_self child⟩)

/-- The nodes of a subtree are nodes of the tree. -/
theorem mem_preorder_trans {k m n : Node}
    (inner : k ∈ m.preorder) (outer : m ∈ n.preorder) : k ∈ n.preorder := by
  induction n using childInduction with
  | step n inductionHypothesis =>
      rcases mem_preorder_iff.mp outer with rfl | ⟨child, childMember, below⟩
      · exact inner
      · exact mem_preorder_iff.mpr <|
          Or.inr ⟨child, childMember, inductionHypothesis child childMember below⟩

/-- What holds of a node whenever it holds of all nodes below it holds of every
tree. -/
theorem descendantInduction {motive : Node → Prop}
    (step : ∀ n : Node, (∀ child ∈ n.children, ∀ m ∈ child.preorder, motive m) → motive n)
    (n : Node) : motive n := by
  have allBelow : ∀ m ∈ n.preorder, motive m := by
    induction n using childInduction with
    | step n inductionHypothesis =>
        intro m member
        rcases mem_preorder_iff.mp member with rfl | ⟨child, childMember, below⟩
        · exact step m inductionHypothesis
        · exact inductionHypothesis child childMember m below
  exact allBelow n (mem_preorder_self n)

theorem outlineAll_subset (skip : Kind → Bool) (ns : List Node)
    (within : ∀ n ∈ ns, n.outlineBelow skip ⊆ n.preorder) :
    outlineAll skip ns ⊆ preorderAll ns := by
  induction ns with
  | nil => exact List.nil_subset _
  | cons n rest inductionHypothesis =>
      rw [outlineAll, preorderAll]
      intro m member
      rcases List.mem_append.mp member with here | later
      · exact List.mem_append_left _ (within n List.mem_cons_self here)
      · have restWithin := inductionHypothesis fun other otherMember =>
          within other (List.mem_cons_of_mem n otherMember)
        exact List.mem_append_right _ (restWithin later)

theorem outlineBelow_subset (skip : Kind → Bool) (n : Node) :
    n.outlineBelow skip ⊆ n.preorder := by
  induction n using childInduction with
  | step n inductionHypothesis =>
      obtain ⟨kind, span, attributes, children⟩ := n
      rw [outlineBelow, preorder]
      apply List.cons_subset_cons
      cases skip kind with
      | true => exact List.nil_subset _
      | false => exact outlineAll_subset skip children inductionHypothesis

/-- The outline of a tree lists nodes of the tree. -/
theorem outline_subset (skip : Kind → Bool) (n : Node) :
    n.outline skip ⊆ n.preorder := by
  obtain ⟨kind, span, attributes, children⟩ := n
  rw [outline, preorder]
  exact List.cons_subset_cons _
    (outlineAll_subset skip children fun child _ => outlineBelow_subset skip child)

end StyleAudit.Node
