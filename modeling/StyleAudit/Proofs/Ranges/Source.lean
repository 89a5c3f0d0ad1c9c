import StyleAudit.Proofs.Audit.Sitewise
import StyleAudit.Proofs.Expression.CallSite
import StyleAudit.Proofs.Ranges.Evaluation

/-!
# Where records point to

A record points to a node of the module that it is about. The rules handle
source ranges without looking at them, so that what they find moves with the
ranges of the module: a range that no node covers cannot be found, since moving
it away would change the finding but not the module.

`exists_produces_of_evaluate` says of each record which node or module it was
found at, and that its range is that of a node of the innermost module there.
-/

namespace StyleAudit

variable {catalog : Catalog} {isNested : String → Bool} {tree m n : Node} {span : Span}
  {scope : ModuleScope} {path way : NodePath} {found : List Violation} {v : Violation}

/-- Some node of the tree covers exactly this range. -/
def Node.Covers (tree : Node) (span : Span) : Prop :=
  ∃ source ∈ tree.preorder, source.span = span

/-! ## Moving one range -/

/-- Move one range down by a line and leave all others. -/
def Span.moving (moved span : Span) : Span :=
  if span = moved then
    { span with coordinates :=
      { span.coordinates with startLine := span.coordinates.startLine + 1 } }
  else span

theorem Span.moving_self_ne (span : Span) : span.moving span ≠ span := by
  rw [moving, if_pos rfl]
  intro same
  have sameLine := congrArg (fun span => span.coordinates.startLine) same
  exact Nat.succ_ne_self _ sameLine

/-- A change that fixes the ranges of a tree leaves the tree. -/
theorem Node.mapSpans_eq_self {change : Span → Span}
    (fixed : ∀ source ∈ n.preorder, change source.span = source.span) :
    n.mapSpans change = n := by
  induction n using childInduction with
  | step n inductionHypothesis =>
      have sameChildren : n.children.map (mapSpans change) = n.children := by
        refine Eq.trans (List.map_congr_left ?_) (List.map_id _)
        intro child member
        exact inductionHypothesis child member fun source below =>
          fixed source (mem_preorder_iff.mpr (Or.inr ⟨child, member, below⟩))
      obtain ⟨kind, span, attributes, children⟩ := n
      have sameSpan : change span = span := fixed _ (mem_preorder_self _)
      rw [mapSpans_mk, sameSpan, sameChildren]

/-- A node of a tree that does not cover a range stays when the range moves. -/
theorem Node.mapSpans_moving (uncovered : ¬ m.Covers span) (member : n ∈ m.preorder) :
    n.mapSpans span.moving = n := by
  apply mapSpans_eq_self
  intro source below
  have apart : source.span ≠ span :=
    fun same => uncovered ⟨source, mem_preorder_trans below member, same⟩
  rw [Span.moving, if_neg apart]

/-- A record that stays when its own range moves does not exist. -/
theorem Violation.mapSpan_moving_ne (v : Violation) : v.mapSpan v.span.moving ≠ v :=
  fun same => Span.moving_self_ne v.span (congrArg Violation.span same)

/-! ## Rules and faults -/

theorem ModuleScope.mapSpans_moving (indexed : ModuleScope.ofModule isNested m = .ok scope)
    (uncovered : ¬ m.Covers span) : scope.mapSpans span.moving = scope := by
  have moved := ofModule_mapSpans span.moving isNested m
  rw [Node.mapSpans_moving uncovered (Node.mem_preorder_self m), indexed] at moved
  exact (Except.ok.inj moved).symm

/-- The records of a rule stand at ranges of nodes of the module. -/
theorem Rule.covers_of_mem_check {rule : Rule} {settings : RuleSettings}
    (indexed : ModuleScope.ofModule isNested m = .ok scope) (member : n ∈ m.preorder)
    (reported : v ∈ rule.check settings ⟨scope, CallGraph.ofScope scope⟩ ⟨way, n⟩) :
    m.Covers v.span := by
  by_contra uncovered
  -- Moving the range leaves all that the rule reads, but would move what it reports.
  have sameScope := ModuleScope.mapSpans_moving indexed uncovered
  have sameGraph : (CallGraph.ofScope scope).mapSpans v.span.moving = CallGraph.ofScope scope := by
    rw [← ofScope_mapSpans, sameScope]
  have moved := rule.check_mapSpans v.span.moving settings ⟨scope, CallGraph.ofScope scope⟩ ⟨way, n⟩
  rw [ModuleContext.mapSpans, sameScope, sameGraph, Site.mapSpans,
    Node.mapSpans_moving uncovered member] at moved
  have everyStays := List.map_inj_left.mp (moved.symm.trans (List.map_id _).symm)
  exact v.mapSpan_moving_ne (everyStays v reported)

theorem ModuleFault.covers_of_ofModule {fault : ModuleFault}
    (broken : ModuleScope.ofModule isNested m = .error (.confined fault)) :
    m.Covers (fault.record m.name).span := by
  by_contra uncovered
  have moved := ofModule_mapSpans (fault.record m.name).span.moving isNested m
  rw [Node.mapSpans_moving uncovered (Node.mem_preorder_self m), broken] at moved
  have sameFault := IndexFault.confined.inj (Except.error.inj moved)
  apply (fault.record m.name).mapSpan_moving_ne
  rw [← record_mapSpan, ← sameFault]

/-! ## Evaluation -/

/-- How a record comes to be said about the node at a path of a tree: a rule of
the catalog finds something there, in the innermost module around it, or the
node is a module that cannot be indexed. -/
inductive Catalog.Produces (catalog : Catalog) (isNested : String → Bool) (tree : Node)
    (path : NodePath) (m : Node) : Violation → Prop
  | check {rule : Rule} {way : NodePath} {n : Node} {scope : ModuleScope} {v : Violation}
      (enabled : rule ∈ catalog.rules) (reached : tree.at? path = some n)
      (innermost : (tree.enclosing path).getLast? = some (m, way))
      (indexed : ModuleScope.ofModule isNested m = .ok scope) (interested : n.kind ∈ rule.kinds)
      (reported : v ∈ rule.check catalog.settings ⟨scope, CallGraph.ofScope scope⟩ ⟨way, n⟩) :
      Produces catalog isNested tree path m v
  | fault {fault : ModuleFault} (reached : tree.at? path = some m) (isModule : m.kind = .module)
      (broken : ModuleScope.ofModule isNested m = .error (.confined fault)) :
      Produces catalog isNested tree path m (fault.record m.name)

namespace Catalog

/-- Every record at a position is produced in some module around it. -/
theorem exists_produces_of_mem_recordsAt
    (listed : v ∈ catalog.recordsAt isNested tree path) :
    ∃ m, catalog.Produces isNested tree path m v := by
  rw [recordsAt] at listed
  split at listed
  · rename_i record hides
    obtain ⟨⟨m, way⟩, enclosed, answer⟩ := List.exists_of_findSome?_eq_some hides
    obtain ⟨isModule, before, isSplit, reached⟩ := Node.mem_enclosing_iff.mp enclosed
    rw [broken?] at answer
    split at answer
    · rename_i fault broken
      cases answer
      rw [List.append_nil] at isSplit
      rw [List.mem_singleton.mp listed, isSplit]
      exact ⟨m, Produces.fault reached isModule broken⟩
    · cases answer
  · cases listed
  · split at listed
    · rename_i m way n innermost reached
      rw [recordsIn] at listed
      split at listed
      · cases listed
      · rename_i scope indexed
        obtain ⟨rule, enabled, reported⟩ := List.mem_flatMap.mp listed
        split at reported
        · rename_i interested
          exact ⟨m, Produces.check enabled reached innermost indexed interested reported⟩
        · cases reported
    · cases listed

theorem Produces.mem_preorder (produced : catalog.Produces isNested tree path m v) :
    m ∈ tree.preorder := by
  cases produced with
  | check enabled reached innermost indexed interested reported =>
      obtain ⟨_, before, _, outer⟩ := Node.mem_enclosing_iff.mp (List.mem_of_getLast? innermost)
      exact Node.mem_preorder_of_at? outer
  | fault reached isModule broken => exact Node.mem_preorder_of_at? reached

theorem Produces.covers (produced : catalog.Produces isNested tree path m v) :
    m.Covers v.span := by
  cases produced with
  | check enabled reached innermost indexed interested reported =>
      obtain ⟨_, before, split, outer⟩ :=
        Node.mem_enclosing_iff.mp (List.mem_of_getLast? innermost)
      rw [split, Node.at?_append, outer, Option.bind_some] at reached
      exact Rule.covers_of_mem_check indexed (Node.mem_preorder_of_at? reached) reported
  | fault reached isModule broken => exact ModuleFault.covers_of_ofModule broken

/-- Every record of an evaluation is said about the node at some path, and its
range is that of a node of the innermost module there. -/
theorem exists_produces_of_evaluate (returned : catalog.evaluate isNested tree = .ok found) :
    ∀ v ∈ found, ∃ path m, catalog.Produces isNested tree path m v ∧ m.Covers v.span := by
  intro v member
  rw [eq_flatMap_of_evaluate returned] at member
  obtain ⟨path, _, listed⟩ := List.mem_flatMap.mp member
  obtain ⟨m, produced⟩ := exists_produces_of_mem_recordsAt listed
  exact ⟨path, m, produced, produced.covers⟩

end Catalog
end StyleAudit
