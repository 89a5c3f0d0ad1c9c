import StyleAudit.Tree.Node

/-!
# Structural equality

Two trees are structurally equal when they differ at most in their source
ranges.
-/

namespace StyleAudit.Node

mutual

/-- Equal kinds and attributes, and structurally equal children. -/
def structurallyEqual : Node → Node → Bool
  | ⟨kind, _, attributes, children⟩, ⟨kind', _, attributes', children'⟩ =>
    kind == kind' && attributes.same attributes' && structurallyEqualAll children children'
  termination_by structural left => left

/-- Equally many trees, structurally equal position by position. -/
def structurallyEqualAll : List Node → List Node → Bool
  | [], [] => true
  | left :: lefts, right :: rights =>
    structurallyEqual left right && structurallyEqualAll lefts rights
  | _, _ => false
  termination_by structural lefts => lefts

end

end StyleAudit.Node
