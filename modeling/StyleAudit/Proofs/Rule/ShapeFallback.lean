import StyleAudit.Proofs.Expression.Instance
import StyleAudit.Proofs.Rule.BranchOrder

/-!
# The shape as a fallback

Where the values of a clause are known, a branch is mapped to the clause by
unification with one of them, and otherwise by the shape of the pattern of the
clause. The second test is coarser (`Node.sameShape_of_unifies`): a branch that
unifies with a value has the shape of that value. So a clause without known values
whose pattern were that value would get the branch as well.
-/

namespace StyleAudit

/-! ## Shapes -/

namespace Node

variable {pattern value left right n : Node}

/-- What the shape of a tree consists of: its kind and, of a tuple or a list, the
number of items. -/
def SameOutline (left right : Node) : Prop :=
  left.kind = right.kind ∧
    (left.kind = .tuple ∨ left.kind = .list → left.children.length = right.children.length)

theorem SameOutline.refl (n : Node) : n.SameOutline n :=
  ⟨rfl, fun _ => rfl⟩

theorem SameOutline.symm (same : left.SameOutline right) : right.SameOutline left := by
  refine ⟨same.1.symm, fun isSequence => (same.2 ?_).symm⟩
  rw [same.1]
  exact isSequence

theorem sameShape_iff : left.sameShape right = true ↔
    left.reduced.kind = .var ∨ right.reduced.kind = .var ∨
      left.reduced.SameOutline right.reduced := by
  simp only [sameShape, SameOutline, Bool.or_eq_true, Bool.and_eq_true, beq_iff_eq, or_assoc]
  refine or_congr_right (or_congr_right (and_congr_right fun _ => ?_))
  cases left.reduced.kind <;> simp

theorem sameShape_self (n : Node) : n.sameShape n = true :=
  sameShape_iff.mpr (Or.inr (Or.inr (SameOutline.refl n.reduced)))

theorem sameShape_symm (same : left.sameShape right = true) : right.sameShape left = true := by
  rw [sameShape_iff] at same ⊢
  rcases same with isVar | isVar | alike
  · exact Or.inr (Or.inl isVar)
  · exact Or.inl isVar
  · exact Or.inr (Or.inr alike.symm)

/-- Only a match becomes a tree of another shape when it is reduced. -/
theorem sameOutline_reduced (noMatch : n.kind ≠ .matchExpr) : n.SameOutline n.reduced := by
  obtain ⟨kind, span, attributes, children⟩ := n
  cases kind with
  | matchExpr => exact absurd rfl noMatch
  | tuple => exact ⟨rfl, fun _ => by rw [reduced, reducedAll_eq_map, List.length_map]⟩
  | _ => exact SameOutline.refl _

/-- A pattern that could match a known value is a catch-all or has its outline. -/
theorem sameOutline_of_unifies (known : value.kind.isOpaque = false)
    (unified : pattern.unifies value = true) :
    pattern.reduced.kind = .var ∨ pattern.kind ≠ .matchExpr ∧ pattern.SameOutline value := by
  obtain ⟨kind, span, attributes, children⟩ := pattern
  cases kind with
  | var => exact Or.inl rfl
  | matchExpr =>
      -- A match without a variable on one side unifies with opaque values only.
      rw [unifies, known, Bool.or_false] at unified
      obtain ⟨side, bound⟩ := Option.isSome_iff_exists.mp unified
      rw [reduced, bound]
      exact Or.inl (kind_of_boundSide? bound)
  | tuple | list =>
      rw [unifies, known, Bool.false_or, Bool.and_eq_true, beq_iff_eq] at unified
      have lengths : children.length = value.children.length :=
        (unifiesAll_iff.mp unified.2).length_eq
      exact Or.inr ⟨by simp, unified.1.symm, fun _ => lengths⟩
  | _ =>
      simp only [unifies, known, Bool.false_or, Bool.and_eq_true, beq_iff_eq] at unified
      refine Or.inr ⟨by simp, ?_, by simp⟩
      simp [unified]

/-- The shape test accepts what unification accepts of known values. -/
theorem sameShape_of_unifies (known : value.kind.isOpaque = false)
    (unified : pattern.unifies value = true) : pattern.sameShape value = true := by
  have noMatch : value.kind ≠ .matchExpr := by
    intro isMatch
    rw [isMatch] at known
    cases known
  rw [sameShape_iff]
  rcases sameOutline_of_unifies known unified with isVar | ⟨noMatchPattern, alike⟩
  · exact Or.inl isVar
  · have patternReduced := sameOutline_reduced noMatchPattern
    have valueReduced := sameOutline_reduced noMatch
    refine Or.inr (Or.inr ⟨?_, fun isSequence => ?_⟩)
    · rw [← patternReduced.1, alike.1, valueReduced.1]
    · rw [← patternReduced.1] at isSequence
      have isSequenceValue : value.kind = .tuple ∨ value.kind = .list := by
        rwa [← alike.1]
      rw [← patternReduced.2 isSequence, alike.2 isSequence, valueReduced.2 isSequenceValue]

end Node

/-! ## Branches and clauses -/

namespace WithElse

variable {scope : ModuleScope} {target : Target} {pattern site : Node}

theorem Yields.isOpaque_eq_false (yields : Yields scope target site) :
    site.kind.isOpaque = false := by
  cases yields with
  | value _ known => exact known
  | returned _ _ _ _ _ known _ => exact known

/-- A clause of which no value is known gets the branches with the shape of its
pattern. -/
theorem canHandle_of_unknown (unknown : ∀ site, ¬Yields scope target site) :
    canHandle scope pattern target = pattern.sameShape target.pattern := by
  rw [Bool.eq_iff_iff, canHandle_iff, ComesFrom]
  constructor
  · rintro (⟨site, yields, _⟩ | ⟨_, sameShape⟩)
    · exact absurd yields (unknown site)
    · exact sameShape
  · intro sameShape
    exact Or.inr ⟨unknown, sameShape⟩

/-- Unification with a value that is known implies the same shape, which is a
reflexive and symmetric relation. A branch that is mapped to a clause by one of its
values has the shape of that value, and any clause of which no value is known and
whose pattern is that value could get it too. -/
theorem sameShape_isCoarser :
    (∀ pattern value : Node, value.kind.isOpaque = false → pattern.unifies value = true →
      pattern.sameShape value = true) ∧
    (∀ n : Node, n.sameShape n = true) ∧
    (∀ left right : Node, left.sameShape right = true → right.sameShape left = true) ∧
    ∀ (scope : ModuleScope) (targets : List Target) (branch : Node) (index : Nat),
      clauseIndex? scope targets branch = some index →
      ∃ pattern body target, branch.branchParts? = some (pattern, body) ∧
        targets[index]? = some target ∧
        ((∀ site, ¬Yields scope target site) ∧ pattern.sameShape target.pattern = true ∨
          ∃ site, Yields scope target site ∧ target.pattern.unifies site = false ∧
            pattern.unifies site = true ∧ pattern.sameShape site = true ∧
            ∀ other, (∀ value, ¬Yields scope other value) → other.pattern = site →
              canHandle scope pattern other = true) := by
  refine ⟨fun _ _ => Node.sameShape_of_unifies, Node.sameShape_self,
    fun _ _ => Node.sameShape_symm, ?_⟩
  intro scope targets branch index mapped
  obtain ⟨pattern, body, target, parts, _, here, comes, _⟩ := clauseIndex?_eq_some_iff.mp mapped
  refine ⟨pattern, body, target, parts, here, ?_⟩
  rcases comes with ⟨site, yields, fails, unified⟩ | ⟨unknown, sameShape⟩
  · have sameShape := Node.sameShape_of_unifies yields.isOpaque_eq_false unified
    refine Or.inr ⟨site, yields, fails, unified, sameShape, ?_⟩
    intro other unknown isSite
    rw [canHandle_of_unknown unknown, isSite, sameShape]
  · exact Or.inl ⟨unknown, sameShape⟩

/-- The tuple of an error and a reason, which is returned by the second clause. -/
def lateError : Node :=
  ⟨.tuple, lineSpan 18, [], [atomForm 18 "error", atomForm 18 "late"]⟩

theorem sameShape_isCoarser_tagged :
    ∃ scope, ModuleScope.ofModule (fun _ => false)
        (moduleOf (handlingForms handlingBranches)) = .ok scope ∧
      clauseIndex? scope (withTargets [] scope (handlingWith handlingBranches)) taggedBranch =
        some 1 ∧
      ∃ pattern body, taggedBranch.branchParts? = some (pattern, body) ∧
        pattern.unifies lateError = true ∧ pattern.sameShape lateError = true ∧
        lateError.sameShape pattern = true := by
  have indexed : ModuleScope.ofModule (fun _ => false)
      (moduleOf (handlingForms handlingBranches)) = .ok _ := rfl
  have unified : (⟨.tuple, lineSpan 7, [], [atomForm 7 "error", neededParam 7]⟩ : Node).unifies
      lateError = true := by
    decide
  have sameShape := sameShape_isCoarser.1 _ lateError rfl unified
  exact ⟨_, indexed, by decide, _, _, rfl, unified, sameShape,
    sameShape_isCoarser.2.2.1 _ _ sameShape⟩

end WithElse
end StyleAudit
