import StyleAudit.Expression.Result
import StyleAudit.Proofs.Expression.Reading
import StyleAudit.Proofs.Nesting.Emptied

/-!
# Patterns and calls of emptied trees

The functions that look at patterns, calls and accesses find the same in a tree
and in `Node.emptied` of it. Where they give back a part of the tree, the two
parts agree when they are emptied as well.
-/

namespace StyleAudit.Node

variable {n m : Node}

/-- Children of trees that agree when emptied agree when emptied. -/
theorem map_emptied_of_emptied_eq (same : n.emptied = m.emptied) (noModule : n.kind ≠ .module) :
    n.children.map emptied = m.children.map emptied := by
  have sameKind : n.kind = m.kind := by rw [← kind_emptied n, same, kind_emptied]
  have ofLeft := map_emptied_emptiedAfter n.readWhole n.children
  have ofRight := map_emptied_emptiedAfter m.readWhole m.children
  rw [← children_emptied noModule, same] at ofLeft
  rw [← children_emptied (sameKind ▸ noModule)] at ofRight
  exact ofLeft.symm.trans ofRight

theorem kind_eq_of_emptied_eq (same : n.emptied = m.emptied) : n.kind = m.kind := by
  rw [← kind_emptied n, same, kind_emptied]

theorem attr_eq_of_emptied_eq (same : n.emptied = m.emptied) (name : String) :
    n.attr name = m.attr name := by
  rw [← attr_emptied n, same, attr_emptied]

/-! ## Reduced patterns -/

theorem reducedAll_eq_map (ns : List Node) : reducedAll ns = ns.map reduced := by
  induction ns with
  | nil => rfl
  | cons n rest inductionHypothesis => rw [reducedAll, inductionHypothesis, List.map_cons]

/-- What a pattern reduces to does not depend on its nested modules, up to these. -/
theorem emptied_reduced_emptied (n : Node) : n.emptied.reduced.emptied = n.reduced.emptied := by
  induction n using childInduction with
  | step n inductionHypothesis =>
      obtain ⟨kind, span, attributes, children⟩ := n
      cases kind with
      | matchExpr =>
          match children with
          | [] => rfl
          | [only] => rfl
          | left :: right :: rest =>
              have emptiedMatch : emptied ⟨.matchExpr, span, attributes, left :: right :: rest⟩ =
                  ⟨.matchExpr, span, attributes,
                    left :: right.emptied :: rest.map emptied⟩ := by
                simp [emptied, readWhole]
              rw [emptiedMatch, reduced, reduced, boundSide?, boundSide?, kind_emptied]
              split
              · rfl
              · split
                · exact emptied_emptied right
                · rw [Option.getD_none, Option.getD_none, ← emptiedMatch, emptied_emptied]
      | tuple =>
          have emptiedTuple : ∀ items, emptied ⟨.tuple, span, attributes, items⟩ =
              ⟨.tuple, span, attributes, items.map emptied⟩ := by
            intro items
            simp [emptied, readWhole]
          rw [emptiedTuple, reduced, reduced, emptiedTuple, emptiedTuple, reducedAll_eq_map,
            reducedAll_eq_map, List.map_map, List.map_map, List.map_map]
          exact congrArg _ (List.map_congr_left fun child member =>
            inductionHypothesis child member)
      | _ => exact emptied_emptied ⟨_, _, _, _⟩

/-- The tag of a reduced value. -/
theorem tag?_emptied (n : Node) : n.emptied.tag? = n.tag? := by
  have same := emptied_reduced_emptied n
  rw [tag?, tag?]
  generalize n.emptied.reduced = value at same
  generalize n.reduced = other at same
  have sameKind := kind_eq_of_emptied_eq same
  simp only [sameKind, attr_eq_of_emptied_eq same]
  cases kind : other.kind with
  | tuple =>
      have items := map_emptied_of_emptied_eq same (by rw [sameKind, kind]; decide)
      simp only
      cases valueItems : value.children with
      | nil =>
          rw [valueItems] at items
          rw [List.map_eq_nil_iff.mp items.symm]
      | cons first rest =>
          rw [valueItems, List.map_cons] at items
          obtain ⟨otherFirst, otherRest, otherItems, firstSame, _⟩ :=
            List.map_eq_cons_iff.mp items.symm
          rw [otherItems]
          simp only [kind_eq_of_emptied_eq firstSame, attr_eq_of_emptied_eq firstSame]
  | _ => rfl

theorem sameShape_emptied_right (pattern n : Node) :
    pattern.sameShape n.emptied = pattern.sameShape n := by
  have same := emptied_reduced_emptied n
  rw [sameShape, sameShape]
  generalize n.emptied.reduced = value at same
  generalize n.reduced = other at same
  have sameKind := kind_eq_of_emptied_eq same
  simp only [sameKind]
  by_cases isModule : other.kind = .module
  · by_cases both : pattern.reduced.kind = .module
    · simp [isModule, both]
    · simp [isModule, beq_eq_false_iff_ne.mpr both]
  · have items := map_emptied_of_emptied_eq same (by rwa [sameKind])
    have sameLength : value.children.length = other.children.length := by
      simpa using congrArg List.length items
    simp only [sameLength]

/-! ## Unification -/

theorem unifiesAll_map {f g : Node → Node} {patterns : List Node}
    (each : ∀ pattern ∈ patterns, ∀ value, (f pattern).unifies (g value) = pattern.unifies value)
    (values : List Node) :
    unifiesAll (patterns.map f) (values.map g) = unifiesAll patterns values := by
  induction patterns generalizing values with
  | nil => cases values <;> rfl
  | cons pattern rest inductionHypothesis =>
      cases values with
      | nil => rfl
      | cons value others =>
          rw [List.map_cons, List.map_cons, unifiesAll, unifiesAll, each pattern List.mem_cons_self,
            inductionHypothesis fun other member => each other (List.mem_cons_of_mem _ member)]

/-- Unification does not look into the nested modules of the value. -/
theorem unifies_emptied_right (pattern value : Node) :
    pattern.unifies value.emptied = pattern.unifies value := by
  induction pattern using childInduction generalizing value with
  | step pattern inductionHypothesis =>
      obtain ⟨kind, span, attributes, children⟩ := pattern
      have inPairs : value.kind.readsByParts = true →
          unifiesAll children value.emptied.children = unifiesAll children value.children := by
        intro byParts
        have paired := unifiesAll_map (f := id) inductionHypothesis value.children
        rw [List.map_id] at paired
        rw [children_emptied_of_readsByParts byParts, paired]
      cases kind with
      | tuple =>
          by_cases isTuple : value.kind = .tuple
          · simp [unifies, inPairs (by rw [isTuple]; rfl)]
          · simp [unifies, beq_eq_false_iff_ne.mpr isTuple]
      | list =>
          by_cases isList : value.kind = .list
          · simp [unifies, inPairs (by rw [isList]; rfl)]
          · simp [unifies, beq_eq_false_iff_ne.mpr isList]
      | _ => simp [unifies]

/-- Unification does not look into the nested modules of the pattern. -/
theorem unifies_emptied_left (pattern value : Node) :
    pattern.emptied.unifies value = pattern.unifies value := by
  induction pattern using childInduction generalizing value with
  | step pattern inductionHypothesis =>
      have inPairs : ∀ values, unifiesAll (pattern.children.map emptied) values =
          unifiesAll pattern.children values := by
        intro values
        have paired := unifiesAll_map (g := id) inductionHypothesis values
        rwa [List.map_id] at paired
      obtain ⟨kind, span, attributes, children⟩ := pattern
      cases kind with
      | matchExpr =>
          match children with
          | [] => rfl
          | [only] => rfl
          | left :: right :: rest =>
              have sameSide : (boundSide? (left :: right.emptied :: rest.map emptied)).isSome =
                  (boundSide? (left :: right :: rest)).isSome := by
                simp only [boundSide?, kind_emptied]
                split
                · rfl
                · split <;> rfl
              simp [emptied, readWhole, unifies, sameSide]
      | tuple => simp [emptied, readWhole, unifies, inPairs]
      | list => simp [emptied, readWhole, unifies, inPairs]
      | _ => simp [emptied, unifies, attr, name]

/-! ## Echoes -/

theorem holdsModule_eq_false_iff :
    n.holdsModule = false ↔
      n.kind ≠ .module ∧ ∀ child ∈ n.children, child.holdsModule = false := by
  have split : n.holdsModule = (n.kind == .module || n.children.any holdsModule) := by
    rw [holdsModule, preorder_eq, List.any_cons, List.any_flatMap]
    rfl
  simp [split]

/-- Reducing a pattern brings no module into it. -/
theorem holdsModule_reduced (free : n.holdsModule = false) : n.reduced.holdsModule = false := by
  induction n using childInduction with
  | step n inductionHypothesis =>
      have below := (holdsModule_eq_false_iff.mp free).2
      obtain ⟨kind, span, attributes, children⟩ := n
      cases kind with
      | matchExpr =>
          match children with
          | [] => exact free
          | [only] => exact free
          | left :: right :: rest =>
              rw [reduced, boundSide?]
              split
              · exact below left (by simp)
              · split
                · exact below right (by simp)
                · exact free
      | tuple =>
          refine holdsModule_eq_false_iff.mpr ⟨by simp [reduced], ?_⟩
          intro item member
          rw [reduced, reducedAll_eq_map] at member
          obtain ⟨child, listed, rfl⟩ := List.mem_map.mp member
          exact inductionHypothesis child listed (below child listed)
      | _ => exact free

theorem structurallyEqualAll_emptiedAfter {patterns : List Node}
    (each : ∀ pattern ∈ patterns, ∀ other,
      pattern.structurallyEqual other.emptied = pattern.structurallyEqual other)
    (kept : Nat) (others : List Node) :
    structurallyEqualAll patterns (emptiedAfter kept others) =
      structurallyEqualAll patterns others := by
  induction patterns generalizing kept others with
  | nil => cases others <;> cases kept <;> rfl
  | cons pattern rest inductionHypothesis =>
      have later := inductionHypothesis fun other member =>
        each other (List.mem_cons_of_mem _ member)
      cases others with
      | nil => simp
      | cons first others =>
          cases kept with
          | zero =>
              rw [emptiedAfter, structurallyEqualAll, structurallyEqualAll,
                each pattern List.mem_cons_self, later]
          | succ kept =>
              rw [emptiedAfter_succ, structurallyEqualAll, structurallyEqualAll, later]

theorem structurallyEqual_eq (n m : Node) :
    n.structurallyEqual m =
      (n.kind == m.kind && n.attributes.same m.attributes &&
        structurallyEqualAll n.children m.children) := by
  cases n
  cases m
  rfl

/-- A tree without modules equals no tree with one. -/
theorem structurallyEqual_emptied (free : n.holdsModule = false) (other : Node) :
    n.structurallyEqual other.emptied = n.structurallyEqual other := by
  induction n using childInduction generalizing other with
  | step n inductionHypothesis =>
      obtain ⟨noModule, below⟩ := holdsModule_eq_false_iff.mp free
      rw [structurallyEqual_eq, structurallyEqual_eq, kind_emptied, attributes_emptied]
      by_cases sameKind : n.kind = other.kind
      · rw [children_emptied (sameKind ▸ noModule), structurallyEqualAll_emptiedAfter]
        intro child member
        exact inductionHypothesis child member (below child member)
      · simp [beq_eq_false_iff_ne.mpr sameKind]

theorem singleExpression?_emptied (n : Node) :
    n.emptied.singleExpression? = n.singleExpression?.map emptied := by
  rw [singleExpression?, singleExpression?, kind_emptied]
  split
  · rename_i isBlock
    rw [children_emptied_of_readsByParts (by rw [isBlock]; rfl)]
    cases n.children with
    | nil => rfl
    | cons first rest => cases rest <;> rfl
  · rfl

theorem emptied_eq_self_of_all_read (noModule : n.kind ≠ .module)
    (all : n.children.length ≤ n.readWhole) : n.emptied = n :=
  ext_of_parts (by simp) (by simp) (by simp)
    (by rw [children_emptied noModule, emptiedAfter_of_length_le all])

/-- The pattern of a branch is kept, and its body if the pattern holds a
module. -/
theorem branchParts?_emptied (isBranch : n.kind = .branch) :
    n.emptied.branchParts? = n.branchParts? ∨
      ∃ pattern body, n.branchParts? = some (pattern, body) ∧ pattern.holdsModule = false ∧
        n.emptied.branchParts? = some (pattern, body.emptied) := by
  obtain ⟨kind, span, attributes, children⟩ := n
  cases isBranch
  match children with
  | [] => exact Or.inl rfl
  | [only] =>
      have whole : emptied ⟨.branch, span, attributes, [only]⟩ =
          ⟨.branch, span, attributes, [only]⟩ :=
        emptied_eq_self_of_all_read (by simp) (readWhole_pos_of_branch rfl)
      exact Or.inl (congrArg branchParts? whole)
  | pattern :: body :: rest =>
      cases holds : pattern.holdsModule with
      | true =>
          left
          rw [emptied_eq_self_of_all_read (by simp) (by simp [readWhole, holds])]
      | false =>
          right
          refine ⟨pattern, body, rfl, holds, ?_⟩
          simp [branchParts?, emptied, readWhole, holds]

theorem isEcho_emptied (isBranch : n.kind = .branch) : n.emptied.isEcho = n.isEcho := by
  rw [isEcho, isEcho]
  rcases branchParts?_emptied isBranch with same | ⟨pattern, body, parts, free, emptiedParts⟩
  · rw [same]
  · have compared := structurallyEqual_emptied (holdsModule_reduced free)
    rw [parts, emptiedParts]
    simp only [singleExpression?_emptied, Option.any_map]
    exact congrArg (body.singleExpression?.any ·) (funext compared)

end StyleAudit.Node
