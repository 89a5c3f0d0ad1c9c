import StyleAudit.Audit.Catalog

/-!
# Evaluating a tree

`Catalog.evaluate` walks a tree once, parents before children, and asks the
enabled rules about every node that lies in a module. The nodes that are still
to be visited wait on a stack, each with the module around it. A module that
cannot be indexed yields one record, and nothing below it is visited.
-/

namespace StyleAudit

def ModuleFault.record (fault : ModuleFault) (moduleName : String) : Violation :=
  .engineError s!"{moduleName}: {fault.message}" fault.span

/-- A node to visit, at its path of the module around it, if there is one. -/
structure Visit where
  site : Site
  context : Option ModuleContext

namespace Visit

/-- The visit once its node is entered, which takes a module as its own
context, or the record of a module that cannot be indexed. -/
def enter (isNested : String → Bool) (visit : Visit) :
    Except UnreadableArity (Except Violation Visit) :=
  if visit.site.node.kind = .module then
    match ModuleScope.ofModule isNested visit.site.node with
    | .error (.arity fault) => .error fault
    | .error (.confined fault) => .ok (.error (fault.record visit.site.node.name))
    | .ok scope => .ok (.ok ⟨⟨[], visit.site.node⟩, some ⟨scope, CallGraph.ofScope scope⟩⟩)
  else .ok (.ok visit)

/-- Put children on the stack, the last one first, so that the first one is on
top. The first child stands at the given position. -/
def push (path : NodePath) (context : Option ModuleContext) (position : Nat)
    (children : List Node) (stack : List Visit) : List Visit :=
  (children.zipIdx position).foldr
    (fun (child, place) stack => ⟨⟨path ++ [place], child⟩, context⟩ :: stack) stack

/-- Put the children of a visited node on the stack, in the same context. -/
def pushChildren (visit : Visit) (stack : List Visit) : List Visit :=
  push visit.site.path visit.context 0 visit.site.node.children stack

def nodeCount (stack : List Visit) : Nat :=
  (stack.flatMap (·.site.node.preorder)).length

theorem node_of_enter {isNested : String → Bool} {visit entered : Visit}
    (entry : visit.enter isNested = .ok (.ok entered)) : entered.site.node = visit.site.node := by
  unfold enter at entry
  split at entry
  · split at entry <;> cases entry
    rfl
  · cases entry
    rfl

theorem nodeCount_cons (visit : Visit) (stack : List Visit) :
    nodeCount (visit :: stack) = visit.site.node.preorder.length + nodeCount stack := by
  rw [nodeCount, List.flatMap_cons, List.length_append, nodeCount]

theorem push_cons (path : NodePath) (context : Option ModuleContext) (position : Nat)
    (child : Node) (rest : List Node) (stack : List Visit) :
    push path context position (child :: rest) stack =
      ⟨⟨path ++ [position], child⟩, context⟩ :: push path context (position + 1) rest stack :=
  rfl

theorem nodeCount_push (path : NodePath) (context : Option ModuleContext) (position : Nat)
    (children : List Node) (stack : List Visit) :
    nodeCount (push path context position children stack) =
      (children.flatMap Node.preorder).length + nodeCount stack := by
  induction children generalizing position with
  | nil => simp [push]
  | cons child rest inductionHypothesis =>
      rw [push_cons, nodeCount_cons, inductionHypothesis, List.flatMap_cons, List.length_append,
        Nat.add_assoc]

end Visit

namespace Catalog

/-- What the enabled rules find at a site, which stands in a module if there is
a context. -/
def ownRecords (catalog : Catalog) (site : Site) : Option ModuleContext → List Violation
  | none => []
  | some context => catalog.check context site

/-- Visit the node on top of the stack, put its children there and go on until
no node is left. The records are added to those already found. -/
def evaluateStack (catalog : Catalog) (isNested : String → Bool) (found : List Violation) :
    List Visit → Except UnreadableArity (List Violation)
  | [] => .ok found
  | visit :: stack =>
    match _entry : visit.enter isNested with
    | .error fault => .error fault
    | .ok (.error record) => evaluateStack catalog isNested (found ++ [record]) stack
    | .ok (.ok entered) =>
      evaluateStack catalog isNested (found ++ catalog.ownRecords entered.site entered.context)
        (entered.pushChildren stack)
termination_by stack => Visit.nodeCount stack
decreasing_by
  all_goals
    rw [Visit.nodeCount_cons, Node.preorder_eq, List.length_cons]
  · omega
  · rw [Visit.pushChildren, Visit.nodeCount_push, Visit.node_of_enter _entry]
    omega

/-- The records of all enabled rules over a tree, in the order of the walk. -/
def evaluate (catalog : Catalog) (isNested : String → Bool) (tree : Node) :
    Except UnreadableArity (List Violation) :=
  catalog.evaluateStack isNested [] [⟨⟨[], tree⟩, none⟩]

end Catalog
end StyleAudit
