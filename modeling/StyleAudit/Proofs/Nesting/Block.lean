import StyleAudit.Proofs.Nesting.Target
import StyleAudit.Rule.Extraction
import StyleAudit.Rule.Flow

/-!
# Conditionals and blocks of emptied modules

The rules about flow of control, successive extractions and manual nested
updates look at expressions only. The bases and keys of updates are compared as a
whole, which is why `Node.emptied` keeps them.
-/

namespace StyleAudit

open Node (AgreeEmptied)

variable {n : Node}

/-! ## Flow of control -/

namespace Flow

theorem isDispatch_emptied (body : Node) : isDispatch body.emptied = isDispatch body := by
  simp only [isDispatch, Node.singleExpression?_emptied, Option.any_map, Node.kind_emptied]

theorem isFlattenableCase_emptied {branches : List Node}
    (areBranches : ∀ branch ∈ branches, branch.kind = .branch) :
    isFlattenableCase (branches.map Node.emptied) = isFlattenableCase branches := by
  have sameWorking : ((branches.map Node.emptied).filter fun branch => !branch.isEcho) =
      (branches.filter fun branch => !branch.isEcho).map Node.emptied := by
    rw [List.filter_map]
    refine congrArg (List.map Node.emptied) (List.filter_congr fun branch member => ?_)
    rw [Function.comp_apply, Node.isEcho_emptied (areBranches branch member)]
  have inBranches : ∀ branch ∈ branches.filter fun branch => !branch.isEcho,
      branch.kind = .branch :=
    fun branch member => areBranches branch (List.mem_of_mem_filter member)
  rw [isFlattenableCase, isFlattenableCase, sameWorking, List.length_map]
  generalize branches.filter (fun branch => !branch.isEcho) = working at inBranches
  match working with
  | [] => rfl
  | _ :: _ :: _ => rfl
  | [only] =>
      rcases Node.branchParts?_emptied (inBranches only (by simp)) with
        same | ⟨pattern, body, parts, _, emptiedParts⟩
      · simp [same]
      · simp [parts, emptiedParts, isDispatch_emptied]

theorem isFlattenable_emptied (shaped : n.IsWellShaped)
    (isHandled : n.kind = .caseExpr ∨ n.kind = .ifExpr) :
    isFlattenable n.emptied = isFlattenable n := by
  have areBranches := shaped.caseBranches
  obtain ⟨kind, span, attributes, children⟩ := n
  rcases isHandled with isCase | isIf
  · cases isCase
    rw [Node.emptied_of_readsByParts rfl]
    cases children with
    | nil => rfl
    | cons subject branches =>
        exact isFlattenableCase_emptied fun branch member => (areBranches rfl branch member).1
  · cases isIf
    rw [Node.emptied_of_readsByParts rfl]
    match children with
    | [] => rfl
    | [_] => rfl
    | [_, consequent] => exact isDispatch_emptied consequent
    | _ :: _ :: _ :: _ => rfl

theorem directiveChoice_emptied (shaped : n.IsWellShaped)
    (isHandled : n.kind = .caseExpr ∨ n.kind = .ifExpr) :
    directiveChoice n.emptied = directiveChoice n := by
  rw [directiveChoice, directiveChoice, isFlattenable_emptied shaped isHandled]
  simp [forwarding]

end Flow

/-! ## Extractions -/

namespace Extraction

theorem extraction?_emptied (expression : Node) :
    extraction? expression.emptied = extraction? expression := by
  obtain ⟨kind, span, attributes, children⟩ := expression
  cases kind with
  | matchExpr =>
      match children with
      | [] => rfl
      | [_] => rfl
      | pattern :: value :: rest =>
          have emptiedMatch :
              Node.emptied ⟨.matchExpr, span, attributes, pattern :: value :: rest⟩ =
                ⟨.matchExpr, span, attributes,
                  pattern :: value.emptied :: Node.emptiedAfter 0 rest⟩ := rfl
          rw [emptiedMatch]
          simp only [extraction?, Node.accessRoot?_emptied]
  | _ => rfl

def Run.emptied (run : Run) : Run :=
  { run with first := run.first.emptied }

theorem finding_emptied (run : Run) : run.emptied.finding = run.finding := by
  simp [Run.finding, Run.emptied]

theorem scan_map_emptied (current : Option Run) (expressions : List Node) :
    scan (current.map Run.emptied) (expressions.map Node.emptied) = scan current expressions := by
  induction expressions generalizing current with
  | nil =>
      cases current with
      | none => rfl
      | some run => exact finding_emptied run
  | cons expression rest inductionHypothesis =>
      have afresh : ∀ first : Run, scan (some first.emptied) (rest.map Node.emptied) =
          scan (some first) rest := fun first => inductionHypothesis (some first)
      have none : scan none (rest.map Node.emptied) = scan none rest := inductionHypothesis none
      have sameClose : closeRun (current.map Run.emptied) = closeRun current := by
        cases current with
        | none => rfl
        | some run => exact finding_emptied run
      rw [List.map_cons]
      unfold scan
      rw [extraction?_emptied]
      cases extraction? expression with
      | none => simp only [sameClose, none]
      | some bound =>
          obtain ⟨name, base⟩ := bound
          cases current with
          | none => exact afresh ⟨expression, 1, [name, base]⟩
          | some run =>
              have sameRoots : run.emptied.roots = run.roots := rfl
              simp only [Option.map_some, sameRoots, finding_emptied]
              split
              · exact afresh ⟨run.first, run.length + 1, name :: run.roots⟩
              · rw [← afresh ⟨expression, 1, [name, base]⟩]
                rfl

theorem check_emptied (isBlock : n.kind = .block) : check n.emptied = check n := by
  rw [check, check, Node.children_emptied_of_readsByParts (by rw [isBlock]; rfl)]
  exact scan_map_emptied none n.children

end Extraction

/-! ## Nested updates -/

namespace NestedUpdate

/-- The base and the key of an update are kept. -/
theorem readWhole_of_update (isCall : n.kind = .call)
    (isContainer : (n.attr "module").isTextIn containerModules)
    (isUpdate : updateFunctions.contains n.name) : n.readWhole = 2 := by
  simp only [Node.readWhole, isCall, Node.isContainerUpdate, isContainer, isUpdate, Bool.true_and,
    if_true]

theorem readPath?_emptied (value : Node) : readPath? value.emptied = readPath? value := by
  have noPath : ∀ other : Node, ¬ (other.kind = .call ∧
      (other.attr "module").isTextIn containerModules ∧ updateFunctions.contains other.name) →
      readPath? other = none := by
    intro other noUpdate
    rw [readPath?]
    split
    · exact if_neg noUpdate
    · rfl
  by_cases isUpdate : value.kind = .call ∧ (value.attr "module").isTextIn containerModules ∧
      updateFunctions.contains value.name
  · rw [readPath?, readPath?, Node.children_emptied (by simp [isUpdate.1]),
      readWhole_of_update isUpdate.1 isUpdate.2.1 isUpdate.2.2, Node.kind_emptied,
      Node.attr_emptied, Node.name_emptied]
    cases value.children <;> rfl
  · rw [noPath value isUpdate, noPath value.emptied (by simpa using isUpdate)]

theorem writtenTo?_emptied (base key n : Node) :
    writtenTo? n.emptied base key = (writtenTo? n base key).map Node.emptied := by
  have noWrite : ∀ other : Node, ¬ (other.kind = .call ∧
      (other.attr "module").isTextIn containerModules ∧ other.name = "put") →
      writtenTo? other base key = none := by
    intro other noPut
    rw [writtenTo?]
    split
    · exact if_neg fun writes => noPut ⟨writes.1, writes.2.1, writes.2.2.1⟩
    · rfl
  by_cases isPut : n.kind = .call ∧ (n.attr "module").isTextIn containerModules ∧ n.name = "put"
  · have keeps : n.readWhole = 2 :=
      readWhole_of_update isPut.1 isPut.2.1 (by rw [isPut.2.2]; decide)
    rw [writtenTo?, writtenTo?, Node.children_emptied (by simp [isPut.1]), keeps,
      Node.kind_emptied, Node.attr_emptied, Node.name_emptied]
    match n.children with
    | [] => rfl
    | [_] => rfl
    | [_, _] => rfl
    | [base', key', written] =>
        simp only [Node.emptiedAfter]
        split <;> rfl
    | _ :: _ :: _ :: _ :: _ => rfl
  · rw [noWrite n isPut, noWrite n.emptied (by simpa using isPut)]
    rfl

theorem valueOf_emptied (expression : Node) :
    valueOf expression.emptied = (valueOf expression).emptied := by
  obtain ⟨kind, span, attributes, children⟩ := expression
  cases kind with
  | matchExpr =>
      match children with
      | [] => rfl
      | [_] => rfl
      | _ :: _ :: _ => rfl
  | _ => rfl

/-- At most two arguments of a call are kept. -/
theorem third_child_emptied {first second inner : Node} (isCall : n.kind = .call)
    (children : n.children = [first, second, inner]) :
    ∃ first' second', n.emptied.children = [first', second', inner.emptied] := by
  rw [Node.children_emptied (by simp [isCall]), children]
  simp only [Node.readWhole, isCall]
  split
  · exact ⟨first, second, rfl⟩
  · exact ⟨first.emptied, second.emptied, rfl⟩

theorem isInline_emptied (value : Node) : isInline value.emptied = isInline value := by
  have noInline : ∀ other : Node, ¬ (other.kind = .call ∧ other.children.length = 3) →
      isInline other = false := by
    intro other apart
    rw [isInline]
    split
    · rename_i isCall children
      exact absurd ⟨isCall, by rw [children]; rfl⟩ apart
    · rfl
  by_cases applies : value.kind = .call ∧ value.children.length = 3
  · obtain ⟨isCall, three⟩ := applies
    obtain ⟨first, second, inner, children⟩ := List.length_eq_three.mp three
    obtain ⟨_, _, emptiedChildren⟩ := third_child_emptied isCall children
    rw [isInline, isInline, Node.kind_emptied, isCall, children, emptiedChildren]
    simp only [readPath?_emptied, writtenTo?_emptied, Option.isSome_map]
  · have emptiedApart : ¬ (value.emptied.kind = .call ∧ value.emptied.children.length = 3) := by
      rintro ⟨isCall, three⟩
      rw [Node.kind_emptied] at isCall
      rw [Node.length_children_emptied (by simp [isCall])] at three
      exact applies ⟨isCall, three⟩
    rw [noInline value applies, noInline value.emptied emptiedApart]

theorem writesBack_emptied (base key : Node) (temporary : String) (expression : Node) :
    writesBack base key temporary expression.emptied =
      writesBack base key temporary expression := by
  simp only [writesBack, valueOf_emptied, writtenTo?_emptied, Option.any_map, Node.kind_emptied,
    Node.name_emptied]

theorem isTwoStep_emptied (expression : Node) (later : List Node) :
    isTwoStep expression.emptied (later.map Node.emptied) = isTwoStep expression later := by
  have sameLater : ∀ base key temporary,
      (later.map Node.emptied).any (writesBack base key temporary) =
        later.any (writesBack base key temporary) := by
    intro base key temporary
    exact (AgreeEmptied.map_emptied later).any_eq (writesBack_emptied base key temporary)
  obtain ⟨kind, span, attributes, children⟩ := expression
  cases kind with
  | matchExpr =>
      match children with
      | [] => rfl
      | [_] => rfl
      | bound :: value :: rest =>
          have emptiedMatch :
              Node.emptied ⟨.matchExpr, span, attributes, bound :: value :: rest⟩ =
                ⟨.matchExpr, span, attributes,
                  bound :: value.emptied :: Node.emptiedAfter 0 rest⟩ := rfl
          rw [emptiedMatch]
          simp only [isTwoStep, readPath?_emptied, sameLater]
  | _ => rfl

theorem updates_map_emptied (expressions : List Node) :
    updates (expressions.map Node.emptied) = (updates expressions).map Node.emptied := by
  induction expressions with
  | nil => rfl
  | cons expression later inductionHypothesis =>
      rw [List.map_cons, updates, updates, valueOf_emptied, isInline_emptied, isTwoStep_emptied,
        inductionHypothesis]
      split <;> rfl

theorem check_emptied (isBlock : n.kind = .block) : check n.emptied = check n := by
  rw [check, check, Node.children_emptied_of_readsByParts (by rw [isBlock]; rfl),
    updates_map_emptied, List.map_map]
  refine List.map_congr_left fun expression _ => ?_
  simp [byHand]

end NestedUpdate
end StyleAudit
