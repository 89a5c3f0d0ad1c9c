import StyleAudit.Rule.Basic
import StyleAudit.Expression.Result

/-!
# Options and status pairs

Options travel as keyword lists, not as maps, and a status with its value as a
tuple, not as a list.
-/

namespace StyleAudit.OptionFormat

/-- The pattern binds a variable with an option name, alone or on a side of a
match. -/
def namesOptions (names : List String) : Node → Bool
  | ⟨.matchExpr, _, _, left :: right :: _⟩ => namesOptions names left || namesOptions names right
  | ⟨.var, span, attributes, children⟩ =>
    names.contains (Node.name ⟨.var, span, attributes, children⟩)
  | _ => false
  termination_by structural n => n

/-- The parameter takes options as a map: by its default, or by a map on a side
of its match. -/
def takesOptionMap (names : List String) : Node → Bool
  | ⟨.default, _, _, pattern :: value :: _⟩ =>
    value.kind == .map && namesOptions names pattern || takesOptionMap names pattern
  | ⟨.matchExpr, span, attributes, left :: right :: rest⟩ =>
    namesOptions names ⟨.matchExpr, span, attributes, left :: right :: rest⟩
      && (left.kind == .map || right.kind == .map)
  | _ => false
  termination_by structural n => n

def optionMap (param : Node) : Finding :=
  ⟨param.span, "optional parameters are declared as a map; use a keyword list."⟩

def statusList (site : Node) : Finding :=
  ⟨site.span, "status and value are returned as a list; " ++
    "return a tuple like `\x7b:ok, value\x7d`."⟩

/-- The parameters that take options as a map and the returns that are status
lists. -/
def check (names : List String) (n : Node) : List Finding :=
  match n.children with
  | params :: body :: _ =>
    (params.children.filter (takesOptionMap names)).map optionMap
      ++ (body.terminals.filter (·.isStatusList)).map statusList
  | _ => []

end StyleAudit.OptionFormat
