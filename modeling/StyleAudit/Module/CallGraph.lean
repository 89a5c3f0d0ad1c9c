import StyleAudit.Module.Scope

/-!
# The call graph of a module

`CallGraph.ofScope` joins the functions of a module by the calls between them.
Calls into other modules are kept apart as unresolved. The callees and the
callers of each function are tabulated once.
-/

namespace StyleAudit

/-- The calls between the functions of one module. -/
structure CallGraph where
  moduleName : String
  /-- The functions in declaration order. -/
  order : List FunctionKey
  /-- Caller and callee of every call, each pair once. -/
  edges : List (FunctionKey × FunctionKey)
  unresolved : List CallRef
  /-- Each function that calls, with the functions that it calls. -/
  calleeTable : List (FunctionKey × List FunctionKey)
  /-- Each function that is called, with the functions that call it. -/
  callerTable : List (FunctionKey × List FunctionKey)
  deriving Repr

/-- Caller and callee of a call between functions of the module. -/
def CallRef.ends? (ref : CallRef) : Option (FunctionKey × FunctionKey) :=
  match ref.caller, ref.resolved with
  | some caller, some callee => some (caller, callee)
  | _, _ => none

/-- Each key that comes first in a pair, with all that it is paired with, once. -/
def tabulate (pairs : List (FunctionKey × FunctionKey)) :
    List (FunctionKey × List FunctionKey) :=
  (pairs.map (·.1)).eraseDups.map fun key =>
    (key, ((pairs.filter (·.1 == key)).map (·.2)).eraseDups)

namespace CallGraph

def ofScope (scope : ModuleScope) : CallGraph :=
  let calls := scope.references.filterMap CallRef.ends?
  { moduleName := scope.name
    order := scope.functions.map (·.key)
    edges := calls.eraseDups
    unresolved := scope.references.filter (·.resolved.isNone)
    calleeTable := tabulate calls
    callerTable := tabulate (calls.map Prod.swap) }

def hasEdge (graph : CallGraph) (caller callee : FunctionKey) : Bool :=
  graph.edges.contains (caller, callee)

def callees (graph : CallGraph) (key : FunctionKey) : List FunctionKey :=
  (graph.calleeTable.lookup key).getD []

def callers (graph : CallGraph) (key : FunctionKey) : List FunctionKey :=
  (graph.callerTable.lookup key).getD []

def position? (graph : CallGraph) (key : FunctionKey) : Option Nat :=
  graph.order.findIdx? (· == key)

/-- The call site binds to a function of the module. -/
def isResolved (graph : CallGraph) (ref : CallRef) : Bool :=
  ref.resolved.any fun key => (graph.position? key).isSome

/-- The function declared first that calls a function other than itself. -/
def firstCaller? (graph : CallGraph) (key : FunctionKey) : Option FunctionKey :=
  let callers := graph.callers key
  graph.order.find? fun caller => caller != key && callers.contains caller

def isEmpty (graph : CallGraph) : Bool :=
  graph.order.isEmpty

end CallGraph
end StyleAudit
