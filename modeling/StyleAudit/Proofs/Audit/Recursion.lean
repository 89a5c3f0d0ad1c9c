import StyleAudit.Audit.Evaluation
import StyleAudit.Proofs.Outcome

/-!
# Evaluation by recursion

`Catalog.evaluateNode` evaluates a tree by recursion on it: the module around a
node is handed down to its children and no stack is kept. The walk with a stack
comes to the same. What it finds for the nodes on a stack is what the recursion
finds for one after the other (`evaluateStack_eq`), as the children of a node
that is visited take its place on the stack.
-/

namespace StyleAudit.Catalog

variable {catalog : Catalog} {isNested : String → Bool} {context : Option ModuleContext}
  {path : NodePath}

/-! ## The recursion -/

mutual

/-- The records at and below a node, which stands at a path of the enclosing
module, if there is one. -/
def evaluateNode (catalog : Catalog) (isNested : String → Bool) (context : Option ModuleContext)
    (path : NodePath) : Node → Except UnreadableArity (List Violation)
  | ⟨kind, span, attributes, children⟩ =>
    let n : Node := ⟨kind, span, attributes, children⟩
    if kind = .module then
      match ModuleScope.ofModule isNested n with
      | .error (.arity fault) => .error fault
      | .error (.confined fault) => .ok [fault.record n.name]
      | .ok scope => do
        let context : ModuleContext := ⟨scope, CallGraph.ofScope scope⟩
        let below ← evaluateAll catalog isNested (some context) [] 0 children
        return catalog.check context ⟨[], n⟩ ++ below
    else do
      let below ← evaluateAll catalog isNested context path 0 children
      return catalog.ownRecords ⟨path, n⟩ context ++ below
  termination_by structural n => n

/-- The records at and below siblings, the first at the given position. -/
def evaluateAll (catalog : Catalog) (isNested : String → Bool) (context : Option ModuleContext)
    (path : NodePath) (position : Nat) : List Node → Except UnreadableArity (List Violation)
  | [] => .ok []
  | n :: rest => do
    let first ← evaluateNode catalog isNested context (path ++ [position]) n
    let others ← evaluateAll catalog isNested context path (position + 1) rest
    return first ++ others
  termination_by structural ns => ns

end

/-! ## The stack -/

/-- What the recursion finds for the nodes on a stack, one after the other. -/
def evaluateEach (catalog : Catalog) (isNested : String → Bool) :
    List Visit → Except UnreadableArity (List Violation)
  | [] => .ok []
  | visit :: stack => do
    let first ← catalog.evaluateNode isNested visit.context visit.site.path visit.site.node
    let others ← evaluateEach catalog isNested stack
    return first ++ others

/-- A visit finds what is found when its node is entered, and then what the
recursion finds for the children. -/
theorem evaluateNode_eq_enter (visit : Visit) :
    catalog.evaluateNode isNested visit.context visit.site.path visit.site.node =
      match visit.enter isNested with
      | .error fault => .error fault
      | .ok (.error record) => .ok [record]
      | .ok (.ok entered) => do
        let below ← catalog.evaluateAll isNested entered.context entered.site.path 0
          entered.site.node.children
        return catalog.ownRecords entered.site entered.context ++ below := by
  obtain ⟨⟨path, kind, span, attributes, children⟩, context⟩ := visit
  rw [evaluateNode, Visit.enter]
  by_cases isModule : kind = .module
  · rw [if_pos isModule, if_pos isModule]
    cases ModuleScope.ofModule isNested ⟨kind, span, attributes, children⟩ with
    | error fault => cases fault <;> rfl
    | ok scope => rfl
  · rw [if_neg isModule, if_neg isModule]

/-- The children that are put on a stack are evaluated as siblings, and what was on
the stack comes after them. -/
theorem evaluateEach_push (position : Nat) (children : List Node) (stack : List Visit) :
    catalog.evaluateEach isNested (Visit.push path context position children stack) = do
      let below ← catalog.evaluateAll isNested context path position children
      let others ← catalog.evaluateEach isNested stack
      return below ++ others := by
  induction children generalizing position with
  | nil =>
      rw [evaluateAll]
      exact (bind_pure (catalog.evaluateEach isNested stack)).symm
  | cons child rest inductionHypothesis =>
      rw [Visit.push_cons, evaluateEach, inductionHypothesis, evaluateAll]
      simp only [bind_assoc, pure_bind, List.append_assoc]

/-- The walk adds to the records already found what the recursion finds for the
nodes on the stack. -/
theorem evaluateStack_eq (found : List Violation) (stack : List Visit) :
    catalog.evaluateStack isNested found stack = do
      let others ← catalog.evaluateEach isNested stack
      return found ++ others := by
  fun_induction catalog.evaluateStack isNested found stack with
  | case1 found =>
      rw [evaluateEach, Outcome.ok_bind, List.append_nil]
      rfl
  | case2 found visit stack fault entry =>
      rw [evaluateEach, evaluateNode_eq_enter, entry]
      rfl
  | case3 found visit stack record entry inductionHypothesis =>
      rw [evaluateEach, evaluateNode_eq_enter, entry, inductionHypothesis]
      simp only [Outcome.ok_bind, bind_assoc, pure_bind, List.append_assoc]
  | case4 found visit stack entered entry inductionHypothesis =>
      rw [evaluateEach, evaluateNode_eq_enter, entry, inductionHypothesis, Visit.pushChildren,
        evaluateEach_push]
      simp only [bind_assoc, pure_bind, List.append_assoc]

/-- The walk with a stack finds what the recursion finds, in the same order. -/
theorem evaluate_eq_evaluateNode (catalog : Catalog) (isNested : String → Bool) (tree : Node) :
    catalog.evaluate isNested tree = catalog.evaluateNode isNested none [] tree := by
  rw [evaluate, evaluateStack_eq]
  simp only [evaluateEach, Outcome.ok_bind, List.append_nil, List.nil_append, bind_pure]

end StyleAudit.Catalog
