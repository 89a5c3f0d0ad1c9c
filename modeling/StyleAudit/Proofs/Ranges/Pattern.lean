import StyleAudit.Expression.Result
import StyleAudit.Proofs.Nesting.Pattern
import StyleAudit.Proofs.Tree.Placement

/-!
# Trees with other source ranges

What is read off a tree stays the same when its source ranges change
(`Node.mapSpans`): lists of nodes and parts of the tree come with their ranges
changed, and all else is equal. Structural equality and the matching of patterns
do not look at ranges.
-/

namespace StyleAudit.Node

variable (change : Span → Span)

/-! ## Nodes -/

@[simp]
theorem kind_mapSpans (n : Node) : (n.mapSpans change).kind = n.kind := by
  obtain ⟨kind, span, attributes, children⟩ := n
  rfl

@[simp]
theorem span_mapSpans (n : Node) : (n.mapSpans change).span = change n.span := by
  obtain ⟨kind, span, attributes, children⟩ := n
  rfl

@[simp]
theorem attributes_mapSpans (n : Node) : (n.mapSpans change).attributes = n.attributes := by
  obtain ⟨kind, span, attributes, children⟩ := n
  rfl

@[simp]
theorem children_mapSpans (n : Node) :
    (n.mapSpans change).children = n.children.map (mapSpans change) := by
  obtain ⟨kind, span, attributes, children⟩ := n
  exact mapSpansAll_eq_map change children

theorem mapSpans_mk (kind : Kind) (span : Span) (attributes : Attributes) (children : List Node) :
    mapSpans change ⟨kind, span, attributes, children⟩ =
      ⟨kind, change span, attributes, children.map (mapSpans change)⟩ := by
  rw [mapSpans, mapSpansAll_eq_map]

@[simp]
theorem attr_mapSpans (n : Node) (name : String) :
    (n.mapSpans change).attr name = n.attr name := by
  rw [attr, attr, attributes_mapSpans]

@[simp]
theorem name_mapSpans (n : Node) : (n.mapSpans change).name = n.name := by
  rw [name, name, attr_mapSpans]

@[simp]
theorem qualifier?_mapSpans (n : Node) : (n.mapSpans change).qualifier? = n.qualifier? := by
  rw [qualifier?, qualifier?, attr_mapSpans]

@[simp]
theorem qualifiedName_mapSpans (n : Node) :
    (n.mapSpans change).qualifiedName = n.qualifiedName := by
  rw [qualifiedName, qualifiedName, attr_mapSpans, name_mapSpans]

theorem childOfKind?_mapSpans (n : Node) (kind : Kind) :
    (n.mapSpans change).childOfKind? kind = (n.childOfKind? kind).map (mapSpans change) := by
  simp only [childOfKind?, children_mapSpans, List.find?_map, Function.comp_def, kind_mapSpans]

theorem childrenOfKind_mapSpans (n : Node) (kind : Kind) :
    (n.mapSpans change).childrenOfKind kind = (n.childrenOfKind kind).map (mapSpans change) := by
  simp [childrenOfKind, List.filter_map, Function.comp_def]

/-! ## Lists of nodes -/

theorem preorder_mapSpans (n : Node) :
    (n.mapSpans change).preorder = n.preorder.map (mapSpans change) := by
  induction n using childInduction with
  | step n inductionHypothesis =>
      rw [preorder_eq, preorder_eq n, children_mapSpans, List.flatMap_map, List.map_cons,
        List.map_flatMap]
      exact congrArg _ (List.flatMap_congr inductionHypothesis)

theorem outlineAll_map (skip : Kind → Bool) {ns : List Node}
    (each : ∀ n ∈ ns,
      (n.mapSpans change).outlineBelow skip = (n.outlineBelow skip).map (mapSpans change)) :
    outlineAll skip (ns.map (mapSpans change)) = (outlineAll skip ns).map (mapSpans change) := by
  induction ns with
  | nil => rfl
  | cons n rest inductionHypothesis =>
      rw [List.map_cons, outlineAll, outlineAll, List.map_append, each n List.mem_cons_self,
        inductionHypothesis fun other member => each other (List.mem_cons_of_mem n member)]

theorem outlineBelow_mapSpans (skip : Kind → Bool) (n : Node) :
    (n.mapSpans change).outlineBelow skip = (n.outlineBelow skip).map (mapSpans change) := by
  induction n using childInduction with
  | step n inductionHypothesis =>
      obtain ⟨kind, span, attributes, children⟩ := n
      rw [mapSpans_mk, outlineBelow, outlineBelow, List.map_cons, mapSpans_mk]
      cases skip kind with
      | true => rfl
      | false => exact congrArg _ (outlineAll_map change skip inductionHypothesis)

theorem outline_mapSpans (skip : Kind → Bool) (n : Node) :
    (n.mapSpans change).outline skip = (n.outline skip).map (mapSpans change) := by
  rw [outline, outline, children_mapSpans, List.map_cons,
    outlineAll_map change skip fun child _ => outlineBelow_mapSpans change skip child]

/-! ## Equality -/

theorem structurallyEqualAll_map {lefts : List Node}
    (each : ∀ left ∈ lefts, ∀ right,
      structurallyEqual (left.mapSpans change) (right.mapSpans change) =
        structurallyEqual left right) (rights : List Node) :
    structurallyEqualAll (lefts.map (mapSpans change)) (rights.map (mapSpans change)) =
      structurallyEqualAll lefts rights := by
  induction lefts generalizing rights with
  | nil => cases rights <;> rfl
  | cons left rest inductionHypothesis =>
      cases rights with
      | nil => rfl
      | cons right others =>
          rw [List.map_cons, List.map_cons, structurallyEqualAll, structurallyEqualAll,
            each left List.mem_cons_self,
            inductionHypothesis fun other member => each other (List.mem_cons_of_mem left member)]

@[simp]
theorem structurallyEqual_mapSpans (left right : Node) :
    structurallyEqual (left.mapSpans change) (right.mapSpans change) =
      structurallyEqual left right := by
  induction left using childInduction generalizing right with
  | step left inductionHypothesis =>
      obtain ⟨kind, span, attributes, children⟩ := left
      obtain ⟨kind', span', attributes', children'⟩ := right
      rw [mapSpans_mk, mapSpans_mk, structurallyEqual, structurallyEqual,
        structurallyEqualAll_map change inductionHypothesis]

/-! ## Patterns -/

theorem boundSide?_map (children : List Node) :
    boundSide? (children.map (mapSpans change)) = (boundSide? children).map (mapSpans change) := by
  match children with
  | [] => rfl
  | [_] => rfl
  | left :: right :: rest =>
      simp only [List.map_cons, boundSide?, kind_mapSpans]
      split
      · rfl
      · split <;> rfl

/-- Reducing a pattern does not look at source ranges. -/
theorem reduced_mapSpans (n : Node) :
    (n.mapSpans change).reduced = n.reduced.mapSpans change := by
  induction n using childInduction with
  | step n inductionHypothesis =>
      obtain ⟨kind, span, attributes, children⟩ := n
      cases kind with
      | matchExpr =>
          rw [mapSpans_mk, reduced, reduced, boundSide?_map]
          cases boundSide? children with
          | none => exact (mapSpans_mk change _ _ _ _).symm
          | some bound => rfl
      | tuple =>
          rw [mapSpans_mk, reduced, reduced, mapSpans_mk, reducedAll_eq_map, reducedAll_eq_map,
            List.map_map, List.map_map]
          exact congrArg _ (List.map_congr_left inductionHypothesis)
      | _ => rfl

@[simp]
theorem isCatchAll_mapSpans (pattern : Node) :
    (pattern.mapSpans change).isCatchAll = pattern.isCatchAll := by
  rw [isCatchAll, isCatchAll, reduced_mapSpans, kind_mapSpans]

@[simp]
theorem isDiscarding_mapSpans (pattern : Node) :
    (pattern.mapSpans change).isDiscarding = pattern.isDiscarding := by
  rw [isDiscarding, isDiscarding, kind_mapSpans, name_mapSpans]

@[simp]
theorem tag?_mapSpans (n : Node) : (n.mapSpans change).tag? = n.tag? := by
  simp only [tag?, reduced_mapSpans, kind_mapSpans, attr_mapSpans, children_mapSpans]
  cases n.reduced.children with
  | nil => rfl
  | cons first rest => simp

/-- Unification does not look at source ranges. -/
@[simp]
theorem unifies_mapSpans (pattern value : Node) :
    (pattern.mapSpans change).unifies (value.mapSpans change) = pattern.unifies value := by
  induction pattern using childInduction generalizing value with
  | step pattern inductionHypothesis =>
      have inPairs := unifiesAll_map inductionHypothesis value.children
      obtain ⟨kind, span, attributes, children⟩ := pattern
      rw [mapSpans_mk]
      cases kind with
      | matchExpr => simp [unifies, boundSide?_map]
      | tuple => simp [unifies, inPairs]
      | list => simp [unifies, inPairs]
      | _ => simp [unifies, Node.attr, Node.name]

@[simp]
theorem sameShape_mapSpans (pattern other : Node) :
    (pattern.mapSpans change).sameShape (other.mapSpans change) = pattern.sameShape other := by
  simp [sameShape, reduced_mapSpans]

theorem patternVariables_mapSpans (pattern : Node) :
    (pattern.mapSpans change).patternVariables =
      pattern.patternVariables.map (mapSpans change) := by
  simp [patternVariables, preorder_mapSpans, List.filter_map, Function.comp_def]

end StyleAudit.Node
