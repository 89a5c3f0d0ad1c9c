import StyleAudit.Rule.Check
import StyleAudit.Settings.Config

/-!
# The catalog of enabled rules

`Catalog.ofConfig` keeps the rules that a configuration does not switch off,
in catalog order. `Catalog.dispatchTable` lists the rules of each kind of
nodes, and `Catalog.check` asks those that look at a node.
-/

namespace StyleAudit

/-- The enabled rules and the settings they are built from. -/
structure Catalog where
  rules : List Rule
  settings : RuleSettings
  deriving Repr

/-- The rules that look at each kind of nodes. -/
abbrev DispatchTable := List (Kind × List Rule)

namespace DispatchTable

def add (rule : Rule) (kind : Kind) : DispatchTable → DispatchTable
  | [] => [(kind, [rule])]
  | (other, rules) :: rest =>
    if other = kind then (other, rules ++ [rule]) :: rest
    else (other, rules) :: add rule kind rest

def rulesOf (table : DispatchTable) (kind : Kind) : List Rule :=
  (table.lookup kind).getD []

end DispatchTable

namespace Catalog

def ofConfig (config : Config) : Catalog :=
  { rules := Rule.all.filter fun rule => !config.disabled.contains rule.id
    settings := config.ruleSettings }

/-- The notices about ids to switch off that no rule has. -/
def notices (config : Config) : List Notice :=
  (Text.sortedDistinct (config.disabled.filter fun id => (Rule.ofId? id).isNone)).map
    .unknownRule

def enables (catalog : Catalog) (id : String) : Bool :=
  catalog.rules.any (·.id == id)

/-- The table that holds every enabled rule under the kinds it looks at. -/
def dispatchTable (catalog : Catalog) : DispatchTable :=
  catalog.rules.foldl
    (fun table rule => rule.kinds.foldl (fun table kind => table.add rule kind) table) []

/-- The enabled rules that look at a kind of nodes, in catalog order. -/
def rulesFor (catalog : Catalog) (kind : Kind) : List Rule :=
  catalog.dispatchTable.rulesOf kind

def check (catalog : Catalog) (context : ModuleContext) (site : Site) : List Violation :=
  (catalog.rulesFor site.node.kind).flatMap (·.check catalog.settings context site)

end Catalog
end StyleAudit
