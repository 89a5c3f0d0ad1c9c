import StyleAudit.Rule.Basic
import StyleAudit.Text.Glob

/-!
# Forms of a module

* `moduledocScope`: a module internal to its context carries no documentation.
* `importScope`: an import stands inside a function and lists what it needs.
* `testCaseUsage`: a test support base is used only for what it provides.
-/

namespace StyleAudit.ModuleForm

/-- Documentation on a module internal to its context. -/
def moduledocScope (scope : ModuleScope) (n : Node) : List Finding :=
  if scope.hasDoc && scope.isNested then
    [⟨n.span, s!"{scope.name} is internal to its context; " ++
      "use `@moduledoc false` and document the context module instead."⟩]
  else []

/-- An import at module level, or one that imports everything. -/
def importScope (scope : ModuleScope) (site : Site) : List Finding :=
  match scope.importAt? site.path with
  | none => []
  | some decl =>
    if !decl.inFunction then
      [⟨site.node.span, s!"import {decl.target} at module level; " ++
        "move it into the function that uses it."⟩]
    else if !decl.isRestricted then
      [⟨site.node.span, s!"import {decl.target} without `only:`; " ++
        "list the functions you need."⟩]
    else []

/-- The entry of a support base, by its name or the last segment of it. -/
def capability? (support : List (String × Capability)) (base : String) : Option Capability :=
  (support.lookup base).or (support.lookup (Text.lastSegment base))

/-- Some call of the module matches a hallmark of the capability. -/
def isExercised (scope : ModuleScope) (capability : Capability) : Bool :=
  scope.references.any fun ref =>
    capability.hallmarks.any fun pattern => Text.globMatches pattern ref.qualifiedName

/-- A support base whose capability is not exercised. -/
def testCaseUsage (support : List (String × Capability)) (scope : ModuleScope) (n : Node) :
    List Finding :=
  let base := (n.attr "module").plainText
  match capability? support base with
  | none => []
  | some capability =>
    if isExercised scope capability then []
    else [⟨n.span, s!"{scope.name} uses {base} but never exercises {capability.provides}; " ++
      "a narrower support base would do."⟩]

end StyleAudit.ModuleForm
