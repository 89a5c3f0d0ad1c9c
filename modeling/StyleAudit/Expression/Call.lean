import StyleAudit.Expression.Pattern

/-!
# Calls and accesses

* `Node.callTarget?` is the call an expression makes last; a pipe passes one
  more argument.
* `Node.calls` lists the calls of a tree with the number of arguments they
  take, leaving out nested modules.
* `Node.accessRoot?` is the variable at the root of a chain of field accesses.
-/

namespace StyleAudit.Node

def pipedCall? (n : Node) : Option Node :=
  match n.kind, n.children with
  | .pipe, _ :: call :: _ => some call
  | _, _ => none

/-- A call expression itself, or the call of a pipe. -/
def outerCall? (n : Node) : Option Node :=
  match n.kind with
  | .call => some n
  | .pipe => n.pipedCall?
  | _ => none

/-- The outermost call of an expression and how many arguments it takes. -/
def callTarget? (n : Node) : Option (Node × Nat) :=
  match n.kind with
  | .call => some (n, n.children.length)
  | .pipe => n.pipedCall?.map fun call => (call, call.children.length + 1)
  | _ => none

mutual

/-- The calls at and below a node that is not a nested module. A call that a
pipe feeds takes one argument more. -/
def callsBelow (piped : Bool) : Node → List (Node × Nat)
  | ⟨.module, _, _, _⟩ => []
  | ⟨.call, span, attributes, children⟩ =>
    (⟨.call, span, attributes, children⟩, children.length + if piped then 1 else 0)
      :: callsAll children
  | ⟨.pipe, _, _, children⟩ => callsOfPipe children
  | ⟨_, _, _, children⟩ => callsAll children
  termination_by structural n => n

/-- The calls of siblings none of which is fed by a pipe. -/
def callsAll : List Node → List (Node × Nat)
  | [] => []
  | n :: rest => callsBelow false n ++ callsAll rest
  termination_by structural ns => ns

/-- The calls of the children of a pipe, which feeds the second one. -/
def callsOfPipe : List Node → List (Node × Nat)
  | [] => []
  | [input] => callsBelow false input
  | input :: call :: rest => callsBelow false input ++ callsBelow true call ++ callsAll rest
  termination_by structural ns => ns

end

/-- Every call of a tree with its number of arguments; the root is entered even
if it is a module. -/
def calls (n : Node) : List (Node × Nat) :=
  if n.kind = .module then callsAll n.children else callsBelow false n

/-- The number of hops of an access chain and what it starts from. An access
and a call named as an accessor lead to their first child. -/
def accessChain (accessors : List String) : Node → Nat × Node
  | ⟨kind, span, attributes, base :: rest⟩ =>
    let n : Node := ⟨kind, span, attributes, base :: rest⟩
    if kind = .access ∨ kind = .call ∧ accessors.contains n.qualifiedName then
      let (depth, root) := accessChain accessors base
      (depth + 1, root)
    else (0, n)
  | n => (0, n)
  termination_by structural n => n

/-- The name of the variable that an access chain starts from, and its length. -/
def accessRoot? (n : Node) (accessors : List String) : Option (String × Nat) :=
  let (depth, root) := accessChain accessors n
  if 0 < depth ∧ root.kind = .var then some (root.name, depth) else none

end StyleAudit.Node
