import StyleAudit.Proofs.Expression.Echo

/-!
# Instances of patterns

An instance of a pattern has other trees where the pattern has variables. As far as
no constant of the pattern is a NaN, which equals nothing, every instance could be
matched by the pattern (`Node.unifies_isInstance`). Reducing the pattern first makes
no difference to what it could match (`Node.unifies_reduced`).
-/

namespace StyleAudit

/-! ## Equal attributes -/

namespace Literal

theorem equals_self {literal : Literal} (noNaN : literal ≠ .float .nan) :
    literal.equals literal = true := by
  cases literal with
  | float value =>
      cases value with
      | nan => exact absurd rfl noNaN
      | infinite negative => simp [equals, Binary64.equals]
      | finite negative mantissa exponent => simp [equals, Binary64.equals]
  | _ => simp [equals, integer?]

theorem same_self (literal : Literal) : literal.same literal = true := by
  by_cases isNaN : literal = .float .nan
  · rw [isNaN]
    rfl
  · rw [same]
    · exact equals_self isNaN
    · intro first _
      exact isNaN first

end Literal

namespace Attribute

theorem sameLists_self (literals : List Literal) : sameLists literals literals = true := by
  induction literals with
  | nil => rfl
  | cons literal rest inductionHypothesis =>
      rw [sameLists, literal.same_self, inductionHypothesis]
      rfl

/-- An attribute equals itself unless it is a NaN. One inside a list does no harm. -/
theorem equals_self {held : Attribute} (noNaN : held ≠ .one (.float .nan)) :
    held.equals held = true := by
  cases held with
  | one literal => exact Literal.equals_self fun isNaN => noNaN (by rw [isNaN])
  | many literals => exact sameLists_self literals

end Attribute

namespace Node

variable {pattern value : Node}

/-! ## Unification in pairs -/

theorem unifiesAll_iff {patterns values : List Node} : unifiesAll patterns values = true ↔
    List.Forall₂ (fun pattern value => pattern.unifies value = true) patterns values := by
  induction patterns generalizing values with
  | nil => cases values <;> simp [unifiesAll]
  | cons pattern rest inductionHypothesis =>
      cases values with
      | nil => simp [unifiesAll]
      | cons value others => simp [unifiesAll, inductionHypothesis]

/-- The side that a match binds is a variable. -/
theorem kind_of_boundSide? {children : List Node} {side : Node}
    (bound : boundSide? children = some side) : side.kind = .var := by
  match children with
  | [] | [_] => cases bound
  | left :: right :: _ =>
      rw [boundSide?] at bound
      by_cases onLeft : left.kind = .var
      · rw [if_pos onLeft] at bound
        cases bound
        exact onLeft
      · rw [if_neg onLeft] at bound
        by_cases onRight : right.kind = .var
        · rw [if_pos onRight] at bound
          cases bound
          exact onRight
        · rw [if_neg onRight] at bound
          cases bound

/-- The reduced pattern could match the same values. -/
theorem unifies_reduced (pattern value : Node) :
    pattern.reduced.unifies value = pattern.unifies value := by
  induction pattern using childInduction generalizing value with
  | step pattern inductionHypothesis =>
      obtain ⟨kind, span, attributes, children⟩ := pattern
      cases kind with
      | matchExpr =>
          rw [reduced]
          cases bound : boundSide? children with
          | none => rfl
          | some side =>
              have catchesAll : side.unifies value = true := by
                apply unifies_of_reduced_var
                obtain ⟨kind, span, attributes, children⟩ := side
                cases kind_of_boundSide? bound
                rfl
              rw [Option.getD_some, catchesAll, unifies, bound]
              rfl
      | tuple =>
          have inPairs := unifiesAll_map (g := id) inductionHypothesis value.children
          rw [List.map_id] at inPairs
          rw [reduced, reducedAll_eq_map, unifies, unifies]
          simp only [inPairs]
      | _ => rfl

/-! ## Instances -/

/-- The second tree is the first one with any trees in place of some of its variables,
not the same ones for a variable that occurs several times. The places of the nodes
may be others. -/
inductive IsInstance : Node → Node → Prop
  | replaced {pattern value : Node} (isVar : pattern.kind = .var) : IsInstance pattern value
  | kept {pattern value : Node} (sameKind : value.kind = pattern.kind)
      (sameAttributes : value.attributes = pattern.attributes)
      (items : List.Forall₂ IsInstance pattern.children value.children) :
      IsInstance pattern value

/-- No attribute of a node of the tree is a NaN. -/
def HoldsNoNaN (n : Node) : Prop :=
  ∀ m ∈ n.preorder, ∀ entry ∈ m.attributes, entry.2 ≠ .one (.float .nan)

theorem IsInstance.refl (n : Node) : n.IsInstance n := by
  induction n using childInduction with
  | step n inductionHypothesis =>
      exact .kept rfl rfl (List.forall₂_same.mpr inductionHypothesis)

theorem HoldsNoNaN.attr {n : Node} (noNaN : n.HoldsNoNaN) (name : String) :
    n.attr name ≠ .one (.float .nan) := by
  rw [Node.attr]
  cases found : n.attributes.lookup name with
  | none =>
      intro impossible
      cases impossible
  | some held =>
      obtain ⟨before, after, split, _⟩ := List.lookup_eq_some_iff.mp found
      exact noNaN n (mem_preorder_self n) (name, held) (by rw [split]; simp)

theorem HoldsNoNaN.of_child {n child : Node} (noNaN : n.HoldsNoNaN)
    (member : child ∈ n.children) : child.HoldsNoNaN := by
  intro m inside
  exact noNaN m (mem_preorder_iff.mpr (Or.inr ⟨child, member, inside⟩))

/-- A pattern could match each of its instances. -/
theorem IsInstance.unifies (isInstance : pattern.IsInstance value)
    (noNaN : pattern.HoldsNoNaN) : pattern.unifies value = true := by
  induction pattern using childInduction generalizing value with
  | step pattern inductionHypothesis =>
      cases isInstance with
      | replaced isVar =>
          obtain ⟨kind, span, attributes, children⟩ := pattern
          cases isVar
          rfl
      | kept sameKind sameAttributes items =>
          have inPairs : unifiesAll pattern.children value.children = true := by
            rw [unifiesAll_iff]
            refine Outcome.forall₂_imp_mem items fun child member _ _ instanceOf => ?_
            exact inductionHypothesis child member instanceOf (noNaN.of_child member)
          have sameAttr : ∀ name, value.attr name = pattern.attr name := by
            intro name
            rw [Node.attr, Node.attr, sameAttributes]
          have sameConstant := Attribute.equals_self (noNaN.attr "value")
          obtain ⟨kind, span, attributes, children⟩ := pattern
          change value.kind = kind at sameKind
          change unifiesAll children value.children = true at inPairs
          cases kind with
          | var => rfl
          | matchExpr => exact unifies_of_isOpaque (by rw [sameKind]; rfl)
          | tuple | list => simp [Node.unifies, sameKind, inPairs]
          | atom | literal => simp [Node.unifies, sameKind, sameAttr, sameConstant]
          | struct => simp [Node.unifies, sameKind, Node.name, sameAttr]
          | _ => simp [Node.unifies, sameKind]

/-- A pattern without a NaN could match its instances, itself among them, and every
pattern could match what its reduced form could. -/
theorem unifies_isInstance (noNaN : pattern.HoldsNoNaN) :
    (∀ value, pattern.IsInstance value → pattern.unifies value = true) ∧
      pattern.unifies pattern = true ∧
      ∀ value, pattern.unifies value = pattern.reduced.unifies value := by
  refine ⟨?_, ?_, ?_⟩
  · intro value isInstance
    exact isInstance.unifies noNaN
  · exact (IsInstance.refl pattern).unifies noNaN
  · intro value
    exact (unifies_reduced pattern value).symm

/-! ## An instance with two trees for one variable -/

/-- A pair of the same value and a number, next to a map in a match. -/
def pairPattern : Node :=
  plainForm .tuple []
    [plainForm .list [] [variableForm "x", variableForm "x"],
      constantForm .literal (.float (.finite true 0 0)),
      plainForm .matchExpr [] [mapForm, plainForm .struct [("name", .one (.text "B"))] []]]

def pairInstance : Node :=
  plainForm .tuple []
    [plainForm .list [] [plainForm .tuple [] [variableForm "y"], plainForm .fnExpr [] []],
      constantForm .literal (.float (.finite true 0 0)),
      plainForm .matchExpr [] [mapForm, plainForm .struct [("name", .one (.text "B"))] []]]

theorem pairInstance_isInstance : pairPattern.IsInstance pairInstance := by
  have items : (plainForm .list [] [variableForm "x", variableForm "x"]).IsInstance
      (plainForm .list [] [plainForm .tuple [] [variableForm "y"], plainForm .fnExpr [] []]) :=
    .kept rfl rfl (.cons (.replaced rfl) (.cons (.replaced rfl) .nil))
  exact .kept rfl rfl (.cons items (.cons (.refl _) (.cons (.refl _) .nil)))

theorem unifies_isInstance_pair : pairPattern.HoldsNoNaN ∧ pairPattern.IsInstance pairInstance ∧
    pairPattern.unifies pairInstance = true ∧ pairPattern.unifies pairPattern = true ∧
    pairPattern.unifies pairInstance = pairPattern.reduced.unifies pairInstance := by
  have noNaN : pairPattern.HoldsNoNaN := by
    unfold HoldsNoNaN
    decide
  obtain ⟨instances, itself, reducing⟩ := unifies_isInstance noNaN
  exact ⟨noNaN, pairInstance_isInstance, instances _ pairInstance_isInstance, itself,
    reducing pairInstance⟩

end Node
end StyleAudit
