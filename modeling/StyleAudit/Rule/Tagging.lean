import StyleAudit.Rule.Basic
import StyleAudit.Expression.Result

/-!
# Tagged results

A function tags all of its results or none, and tags them only when it can
fail. The clauses of a function are judged together, at the first one.
-/

namespace StyleAudit.Tagging

def callbackNames : List String :=
  ["init", "start", "start_link", "child_spec", "handle_call", "handle_cast", "handle_info",
    "handle_continue", "handle_event", "handle_params", "mount", "update", "code_change"]

def returnSites (group : FunctionGroup) : List Node :=
  group.bodies.flatMap (·.terminals)

/-- The findings about a function whose first clause is a node, from its return
sites and their kinds. -/
def judge (group : FunctionGroup) (n : Node) (sites : List (Node × ReturnKind)) :
    List Finding :=
  let yields (kind : ReturnKind) : Bool := sites.any fun (_, found) => found == kind
  if (yields .ok || yields .error) && yields .plain then
    (sites.filter fun (_, found) => found == .plain).map fun (site, _) =>
      ⟨site.span, s!"{group.key.text} returns tagged results elsewhere " ++
        "but an untagged value here."⟩
  else if yields .ok && sites.all (fun (_, found) => found == .ok || found == .raise)
      && !callbackNames.contains group.key.name then
    [⟨n.span, s!"{group.key.text} can only succeed yet wraps its result in `:ok`; " ++
      "return the value itself."⟩]
  else []

/-- The findings about the function whose first clause stands at a site. -/
def check (scope : ModuleScope) (site : Site) : List Finding :=
  match scope.functionForClause? site.path with
  | none => []
  | some group =>
    if site.path = [group.first.position] then
      judge group site.node
        ((returnSites group).map fun returned => (returned, returned.returnKind))
    else []

end StyleAudit.Tagging
