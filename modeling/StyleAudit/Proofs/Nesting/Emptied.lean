import StyleAudit.Proofs.Tree.Position
import StyleAudit.Rule.NestedUpdate

/-!
# Trees with their nested modules emptied

`Node.emptied` takes out what is below the modules of a tree. Patterns, the bases
and keys of updates and the like are kept as they are: the rules search them or
compare them with everything that is below them. `Node.readWhole` says how many
of the first children of a node are read in this way.

Two trees with the same `emptied` differ inside of nested modules only. The
lemmas `kind_emptied`, `children_emptied` and `map_emptied_emptiedAfter` are what
is needed to see that a function of trees cannot tell them apart.
-/

namespace StyleAudit

/-- The children of such a node are read one by one, none together with all that
is below it. -/
def Kind.readsByParts : Kind → Bool
  | module | function | matchExpr | branch | call | atom => false
  | _ => true

namespace Node

variable {n m child : Node} {ns : List Node}

/-- A module stands in the tree. -/
def holdsModule (n : Node) : Bool :=
  n.preorder.any (·.kind == .module)

/-- The call changes a keyed container. -/
def isContainerUpdate (n : Node) : Bool :=
  (n.attr "module").isTextIn NestedUpdate.containerModules &&
    NestedUpdate.updateFunctions.contains n.name

/-- How many of the first children are searched, or compared with other trees,
with everything below them: what is declared, the place that is updated, and
what is in an atom. The body of a branch is compared with its pattern; a pattern
without modules equals no tree that holds one. -/
def readWhole (n : Node) : Nat :=
  match n.kind with
  | .function | .matchExpr => 1
  | .branch => if n.children.head?.any holdsModule then n.children.length else 1
  | .call => if n.isContainerUpdate then 2 else 0
  | .atom => n.children.length
  | _ => 0

mutual

/-- The tree without what is below its modules. -/
def emptied : Node → Node
  | ⟨kind, span, attributes, children⟩ =>
    ⟨kind, span, attributes,
      if kind = .module then []
      else emptiedAfter (readWhole ⟨kind, span, attributes, children⟩) children⟩
  termination_by structural n => n

/-- Siblings, those after the first ones emptied. -/
def emptiedAfter : Nat → List Node → List Node
  | _, [] => []
  | 0, n :: rest => emptied n :: emptiedAfter 0 rest
  | kept + 1, n :: rest => n :: emptiedAfter kept rest
  termination_by structural _ ns => ns

end

theorem ext_of_parts (kind : n.kind = m.kind) (span : n.span = m.span)
    (attributes : n.attributes = m.attributes) (children : n.children = m.children) : n = m := by
  cases n
  cases m
  simp_all

@[simp]
theorem kind_emptied (n : Node) : n.emptied.kind = n.kind := by
  obtain ⟨kind, span, attributes, children⟩ := n
  rfl

@[simp]
theorem span_emptied (n : Node) : n.emptied.span = n.span := by
  obtain ⟨kind, span, attributes, children⟩ := n
  rfl

@[simp]
theorem attributes_emptied (n : Node) : n.emptied.attributes = n.attributes := by
  obtain ⟨kind, span, attributes, children⟩ := n
  rfl

@[simp]
theorem attr_emptied (n : Node) (name : String) : n.emptied.attr name = n.attr name := by
  rw [attr, attr, attributes_emptied]

@[simp]
theorem name_emptied (n : Node) : n.emptied.name = n.name := by
  rw [name, name, attr_emptied]

@[simp]
theorem qualifier?_emptied (n : Node) : n.emptied.qualifier? = n.qualifier? := by
  rw [qualifier?, qualifier?, attr_emptied]

@[simp]
theorem qualifiedName_emptied (n : Node) : n.emptied.qualifiedName = n.qualifiedName := by
  rw [qualifiedName, qualifiedName, attr_emptied, name_emptied]

@[simp]
theorem isContainerUpdate_emptied (n : Node) :
    n.emptied.isContainerUpdate = n.isContainerUpdate := by
  rw [isContainerUpdate, isContainerUpdate, attr_emptied, name_emptied]

@[simp]
theorem emptiedAfter_nil (kept : Nat) : emptiedAfter kept [] = [] := by
  cases kept <;> rfl

@[simp]
theorem emptiedAfter_zero (ns : List Node) : emptiedAfter 0 ns = ns.map emptied := by
  induction ns with
  | nil => rfl
  | cons n rest inductionHypothesis => rw [emptiedAfter, inductionHypothesis, List.map_cons]

@[simp]
theorem emptiedAfter_succ (kept : Nat) (n : Node) (rest : List Node) :
    emptiedAfter (kept + 1) (n :: rest) = n :: emptiedAfter kept rest :=
  rfl

@[simp]
theorem length_emptiedAfter (kept : Nat) (ns : List Node) :
    (emptiedAfter kept ns).length = ns.length := by
  induction ns generalizing kept with
  | nil => simp
  | cons n rest inductionHypothesis =>
      cases kept <;> simp [inductionHypothesis]

theorem emptiedAfter_of_length_le {kept : Nat} (all : ns.length ≤ kept) :
    emptiedAfter kept ns = ns := by
  induction ns generalizing kept with
  | nil => simp
  | cons n rest inductionHypothesis =>
      cases kept with
      | zero => cases all
      | succ kept => rw [emptiedAfter_succ, inductionHypothesis (Nat.le_of_succ_le_succ all)]

theorem children_emptied_of_module (isModule : n.kind = .module) : n.emptied.children = [] := by
  obtain ⟨kind, span, attributes, children⟩ := n
  exact if_pos isModule

/-- Of a node that is no module, the children read as a whole are kept and the others
are emptied. -/
theorem children_emptied (noModule : n.kind ≠ .module) :
    n.emptied.children = emptiedAfter n.readWhole n.children := by
  obtain ⟨kind, span, attributes, children⟩ := n
  exact if_neg noModule

theorem readWhole_of_readsByParts (byParts : n.kind.readsByParts = true) : n.readWhole = 0 := by
  cases kind : n.kind with
  | function | matchExpr | branch | call | atom =>
      rw [kind] at byParts
      cases byParts
  | _ => simp [readWhole, kind]

theorem not_module_of_readsByParts (byParts : n.kind.readsByParts = true) :
    n.kind ≠ .module := by
  intro isModule
  rw [isModule] at byParts
  cases byParts

theorem children_emptied_of_readsByParts (byParts : n.kind.readsByParts = true) :
    n.emptied.children = n.children.map emptied := by
  rw [children_emptied (not_module_of_readsByParts byParts), readWhole_of_readsByParts byParts,
    emptiedAfter_zero]

theorem emptied_of_readsByParts {kind : Kind} {span : Span} {attributes : Attributes}
    {children : List Node} (byParts : kind.readsByParts = true) :
    emptied ⟨kind, span, attributes, children⟩ =
      ⟨kind, span, attributes, children.map emptied⟩ :=
  ext_of_parts rfl rfl rfl (children_emptied_of_readsByParts byParts)

theorem length_children_emptied (noModule : n.kind ≠ .module) :
    n.emptied.children.length = n.children.length := by
  rw [children_emptied noModule, length_emptiedAfter]

/-! ## Emptying twice -/

theorem head?_emptiedAfter {kept : Nat} (some : 0 < kept) (ns : List Node) :
    (emptiedAfter kept ns).head? = ns.head? := by
  cases kept with
  | zero => cases some
  | succ kept => cases ns <;> simp

theorem readWhole_pos_of_branch (isBranch : n.kind = .branch) : 0 < n.readWhole := by
  simp only [readWhole, isBranch]
  split
  · rename_i holds
    cases children : n.children with
    | nil =>
        rw [children] at holds
        cases holds
    | cons first rest => simp
  · exact Nat.one_pos

@[simp]
theorem readWhole_emptied (n : Node) : n.emptied.readWhole = n.readWhole := by
  by_cases isModule : n.kind = .module
  · simp [readWhole, isModule]
  · have sameLength := length_children_emptied isModule
    cases kind : n.kind with
    | branch =>
        have sameFirst : n.emptied.children.head? = n.children.head? := by
          rw [children_emptied isModule, head?_emptiedAfter (readWhole_pos_of_branch kind)]
        simp [readWhole, kind, sameFirst, sameLength]
    | _ => simp [readWhole, kind, sameLength]

theorem emptiedAfter_emptiedAfter (kept : Nat)
    (twice : ∀ n ∈ ns, n.emptied.emptied = n.emptied) :
    emptiedAfter kept (emptiedAfter kept ns) = emptiedAfter kept ns := by
  induction ns generalizing kept with
  | nil => simp
  | cons n rest inductionHypothesis =>
      have later := fun kept => inductionHypothesis kept fun other member =>
        twice other (List.mem_cons_of_mem n member)
      cases kept with
      | zero => rw [emptiedAfter, emptiedAfter, twice n List.mem_cons_self, later]
      | succ kept => rw [emptiedAfter_succ, emptiedAfter_succ, later]

/-- Emptying twice empties nothing more. -/
@[simp]
theorem emptied_emptied (n : Node) : n.emptied.emptied = n.emptied := by
  induction n using childInduction with
  | step n inductionHypothesis =>
      refine ext_of_parts (by simp) (by simp) (by simp) ?_
      by_cases isModule : n.kind = .module
      · rw [children_emptied_of_module (by simpa using isModule),
          children_emptied_of_module isModule]
      · rw [children_emptied (by simpa using isModule), readWhole_emptied,
          children_emptied isModule, emptiedAfter_emptiedAfter _ inductionHypothesis]

theorem map_emptied_emptiedAfter (kept : Nat) (ns : List Node) :
    (emptiedAfter kept ns).map emptied = ns.map emptied := by
  induction ns generalizing kept with
  | nil => simp
  | cons n rest inductionHypothesis =>
      cases kept with
      | zero => simp
      | succ kept => rw [emptiedAfter_succ, List.map_cons, inductionHypothesis, List.map_cons]

end Node
end StyleAudit
