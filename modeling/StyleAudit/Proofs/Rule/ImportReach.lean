import StyleAudit.Proofs.Module.InsertedImport
import StyleAudit.Proofs.Rule.PassedError

/-!
# How far an import reaches

An unqualified call that no function of the module answers comes from the module
that the imports tell (`providerOf?`), wherever in the module they stand. So an import
that is put into a function is seen by the calls of the other functions, too: it
redirects those that `Redirects` describes and no others, and the rules about calls
into other modules say the same of every node that dispatches on none of them
(`insertedImport_reach`).
-/

namespace StyleAudit

variable {trusted : List String} {scope scope' : ModuleScope} {n call : Node} {arity : Nat}
  {before added after imports : List ImportDecl} {key : FunctionKey}

/-! ## The module that a call comes from -/

/-- The module that an unqualified call comes from, as far as the imports tell. -/
def providerOf? (imports : List ImportDecl) (key : FunctionKey) : Option String :=
  (importedFrom? imports key).or
    (if imports.any (·.importsUnknownNames) then none else some "Kernel")

theorem unqualifiedOrigin_eq :
    unqualifiedOrigin trusted scope key =
      ⟨providerOf? scope.imports key, false,
        (providerOf? scope.imports key).any trusted.contains⟩ := by
  rw [unqualifiedOrigin, providerOf?]
  cases importedFrom? scope.imports key with
  | some target => rfl
  | none => cases scope.imports.any (·.importsUnknownNames) <;> rfl

theorem providerOf?_unplaced (imports : List ImportDecl) (key : FunctionKey) :
    providerOf? (imports.map ImportDecl.unplaced) key = providerOf? imports key := by
  have sameListed : importedFrom? (imports.map ImportDecl.unplaced) key =
      importedFrom? imports key := by
    apply importedFrom?_of_unplaced
    rw [List.map_map]
    rfl
  have sameUnknown : (imports.map ImportDecl.unplaced).any (·.importsUnknownNames) =
      imports.any (·.importsUnknownNames) := by
    rw [List.any_map]
    rfl
  rw [providerOf?, providerOf?, sameListed, sameUnknown]

theorem importedFrom?_append (first last : List ImportDecl) (key : FunctionKey) :
    importedFrom? (first ++ last) key = (importedFrom? first key).or (importedFrom? last key) := by
  rw [importedFrom?, importedFrom?, importedFrom?, List.find?_append, Option.map_or]

/-! ## Redirected calls -/

/-- The imports that are added in the middle send a call to another module. -/
inductive Redirects (before added after : List ImportDecl) (key : FunctionKey) : Prop
  /-- One of them is the first that lists the call, and the call came from another
  module. -/
  | listed {target : String} (unlisted : importedFrom? before key = none)
      (lists : importedFrom? added key = some target)
      (moves : providerOf? (before ++ after) key ≠ some target)
  /-- One of them is the first that may provide the call without listing it, so that it
  no longer comes from the kernel. -/
  | opened (unlisted : importedFrom? (before ++ added ++ after) key = none)
      (closed : ∀ decl ∈ before ++ after, decl.importsUnknownNames = false)
      (opens : ∃ decl ∈ added, decl.importsUnknownNames = true)

/-- When inserted imports redirect a name: they list it first and from another
module, or no import lists it and only they import names that are not listed. -/
theorem redirects_iff : Redirects before added after key ↔
    (importedFrom? before key = none ∧ ∃ target, importedFrom? added key = some target ∧
      providerOf? (before ++ after) key ≠ some target) ∨
    importedFrom? (before ++ added ++ after) key = none ∧
      (before ++ after).any (·.importsUnknownNames) = false ∧
      added.any (·.importsUnknownNames) = true := by
  constructor
  · rintro (⟨unlisted, lists, moves⟩ | ⟨unlisted, closed, opens⟩)
    · exact Or.inl ⟨unlisted, _, lists, moves⟩
    · exact Or.inr ⟨unlisted, by simpa [or_imp, forall_and] using closed, by simpa using opens⟩
  · rintro (⟨unlisted, target, lists, moves⟩ | ⟨unlisted, closed, opens⟩)
    · exact .listed unlisted lists moves
    · exact .opened unlisted (by simpa [or_imp, forall_and] using closed) (by simpa using opens)

/-- The imports that are added are asked after those before them, and only where none
of those lists the call. -/
theorem providerOf?_eq_iff_not_redirects :
    providerOf? (before ++ added ++ after) key = providerOf? (before ++ after) key ↔
      ¬Redirects before added after key := by
  rw [redirects_iff]
  simp only [providerOf?, importedFrom?_append, List.any_append]
  generalize importedFrom? before key = earlier, importedFrom? added key = here,
    importedFrom? after key = later, before.any (·.importsUnknownNames) = earlierOpen,
    added.any (·.importsUnknownNames) = hereOpen, after.any (·.importsUnknownNames) = laterOpen
  cases earlier with
  | some target => simp
  | none =>
      cases here with
      | some target =>
          rw [eq_comm]
          simp [or_iff_not_imp_left, and_assoc]
      | none =>
          cases later with
          | some target => simp
          | none => cases earlierOpen <;> cases hereOpen <;> cases laterOpen <;> simp

/-- The call is unqualified, no function of the module answers it, and the imports that
are added send it to another module. -/
def ModuleScope.IsRedirected (scope : ModuleScope) (before added after : List ImportDecl)
    (call : Node) (arity : Nat) : Prop :=
  call.qualifier? = none ∧ scope.resolve? ⟨call.name, arity⟩ = none ∧
    Redirects before added after ⟨call.name, arity⟩

/-- A call keeps its origin exactly when the inserted imports do not redirect it. -/
theorem ModuleScope.GainsImports.callOrigin_eq_iff
    (gains : scope.GainsImports scope' before added after) (trusted : List String) (call : Node)
    (arity : Nat) :
    callOrigin trusted scope' call arity = callOrigin trusted scope call arity ↔
      ¬scope.IsRedirected before added after call arity := by
  have sameLocal : ∀ qualifier, scope'.isLocal qualifier = scope.isLocal qualifier := by
    intro qualifier
    rw [ModuleScope.isLocal, gains.name]
    rfl
  have sameOrigin : ∀ key, unqualifiedOrigin trusted scope' key =
      unqualifiedOrigin trusted scope key ↔ ¬Redirects before added after key := by
    intro key
    rw [← providerOf?_eq_iff_not_redirects, ← gains.imports, ← gains.gained,
      providerOf?_unplaced, providerOf?_unplaced, unqualifiedOrigin_eq, unqualifiedOrigin_eq]
    constructor
    · intro same
      exact congrArg Origin.module same
    · intro same
      rw [same]
  rw [callOrigin, callOrigin, sameLocal, gains.resolves, gains.name, ModuleScope.IsRedirected]
  by_cases addressed : scope.isLocal call.qualifier? = true
  · rw [if_pos addressed, if_pos addressed]
    cases found : scope.resolve? ⟨call.name, arity⟩ with
    | some group => simp
    | none =>
        cases call.qualifier? with
        | some qualifier => simp
        | none => simpa using sameOrigin ⟨call.name, arity⟩
  · rw [if_neg addressed, if_neg addressed]
    refine iff_of_true rfl ?_
    rintro ⟨unqualified, _⟩
    rw [unqualified] at addressed
    exact addressed rfl

/-! ## The rules -/

/-- The rules that ask where the calls of a `with` or a `case` come from. -/
def Rule.asksForOrigins : List Rule :=
  [.withElseCoverage, .withElseRedundancy, .errorMapping]

theorem SameOrigins.findings_eq {settings : RuleSettings} {site : Site} {rule : Rule}
    (same : SameOrigins settings.trusted scope scope' site.node) (asks : rule ∈ Rule.asksForOrigins)
    (looks : site.node.kind ∈ rule.kinds) (graph graph' : CallGraph) :
    rule.findings settings ⟨scope', graph'⟩ site = rule.findings settings ⟨scope, graph⟩ site := by
  simp only [Rule.asksForOrigins, List.mem_cons, List.not_mem_nil, or_false] at asks
  rcases asks with rfl | rfl | rfl
  · have isWith : site.node.kind = .withExpr := List.mem_singleton.mp looks
    rw [Rule.findings, Rule.findings, WithElse.coverage, WithElse.coverage,
      same.withTargets_eq isWith]
  · have isWith : site.node.kind = .withExpr := List.mem_singleton.mp looks
    rw [Rule.findings, Rule.findings, WithElse.redundancy, WithElse.redundancy,
      same.withTargets_eq isWith]
  · have dispatches : site.node.kind = .withExpr ∨ site.node.kind = .caseExpr := by
      rcases List.mem_cons.mp looks with isCase | isWith
      · exact Or.inr isCase
      · exact Or.inl (List.mem_singleton.mp isWith)
    rw [Rule.findings, Rule.findings, ErrorMapping.check, ErrorMapping.check,
      same.branchesAndTargets_eq dispatches]

/-- What an import in the function at one position does to the rest of its module. -/
structure ReachesCalls (m m' : Node) (position : Nat) (scope scope' : ModuleScope)
    (before added after : List ImportDecl) : Prop where
  gains : scope.GainsImports scope' before added after
  /-- The calls that are redirected are those whose origins differ. -/
  origins : ∀ trusted call arity,
    callOrigin trusted scope' call arity = callOrigin trusted scope call arity ↔
      ¬scope.IsRedirected before added after call arity
  /-- The nodes of the other forms are the same. -/
  nodes : ∀ other way, other ≠ position → m'.at? (other :: way) = m.at? (other :: way)
  /-- The records of a node that dispatches on no redirected call are the same. -/
  records : ∀ other way n, other ≠ position → m.at? (other :: way) = some n →
    (∀ call arity, n.DispatchesOn call arity →
      ¬scope.IsRedirected before added after call arity) →
    ∀ rule ∈ Rule.asksForOrigins, n.kind ∈ rule.kinds → ∀ settings,
      rule.check settings ⟨scope', .ofScope scope'⟩ ⟨other :: way, n⟩ =
        rule.check settings ⟨scope, .ofScope scope⟩ ⟨other :: way, n⟩

/-- An import that is put into the body of a function has its place in the one list of
the imports of the module. In the other functions it changes the records about calls
into other modules only of nodes that dispatch on a call that it redirects. -/
theorem insertedImport_reach {isNested : String → Bool} {m directive m' : Node} {position : Nat}
    {way : NodePath}
    (inserts : m.InsertsImport position way directive m')
    (indexed : ModuleScope.ofModule isNested m = .ok scope)
    (indexed' : ModuleScope.ofModule isNested m' = .ok scope') :
    ∃ before added after,
      (if (m.enclosing (position :: 1 :: way)).tail = []
        then directive.Declares added else added = []) ∧
      ReachesCalls m m' position scope scope' before added after := by
  obtain ⟨before, added, after, declares, gains⟩ := inserts.exists_gainsImports indexed indexed'
  refine ⟨before, added, after, declares, gains, gains.callOrigin_eq_iff, ?_, ?_⟩
  · intro other way elsewhere
    exact inserts.at?_eq elsewhere way
  · intro other way n _ _ unredirected rule asks looks settings
    have same : SameOrigins settings.trusted scope scope' n := by
      intro call arity dispatched
      exact (gains.callOrigin_eq_iff settings.trusted call arity).mpr
        (unredirected call arity dispatched)
    rw [Rule.check, Rule.check, same.findings_eq asks looks]

/-! ## Imports of another function -/

open ErrorMapping (plainSettings)
open WithElse (atomForm)

/-- A `with` on a function of the kernel that has no `else`. -/
def kernelWith : Node :=
  ⟨.withExpr, lineSpan 3, [],
    [⟨.withClause, lineSpan 3, [], [atomForm 3 "ok", callForm 3 .null "h" []]⟩,
      ⟨.block, lineSpan 4, [], [atomForm 4 "ok"]⟩]⟩

def importForm (only : Attribute) : Node :=
  ⟨.importDirective, lineSpan 7, [("module", .one (.text "B")), ("only", only)], []⟩

/-- A function with the `with`, and another one with the given imports. -/
def neighborModule (imports : List Node) : Node :=
  moduleOf [functionForm 2 "f" "public" [] [kernelWith],
    functionForm 6 "g" "private" [] (imports ++ [atomForm 8 "ok"])]

theorem insertsImport_importForm (only : Attribute) :
    (neighborModule []).InsertsImport 1 [] (importForm only)
      (neighborModule [importForm only]) := by
  have reached : (functionForm 6 "g" "private" [] [atomForm 8 "ok"]).at? [1] =
      some ⟨.block, lineSpan 6, [], [atomForm 8 "ok"]⟩ := rfl
  have children : [atomForm 8 "ok"] = [] ++ [atomForm 8 "ok"] := rfl
  exact .intro rfl rfl reached children rfl

def kernelSettings : RuleSettings :=
  { plainSettings with trusted := ["Kernel"] }

/-- The import lists another function than the one called. -/
theorem insertedImport_reach_restricted :
    ∃ scope scope' before added after,
      (neighborModule []).InsertsImport 1 [] (importForm (.many [.text "k/0"]))
        (neighborModule [importForm (.many [.text "k/0"])]) ∧
      ModuleScope.ofModule (fun _ => false) (neighborModule []) = .ok scope ∧
      ModuleScope.ofModule (fun _ => false)
        (neighborModule [importForm (.many [.text "k/0"])]) = .ok scope' ∧
      (importForm (.many [.text "k/0"])).Declares added ∧
      ReachesCalls (neighborModule []) (neighborModule [importForm (.many [.text "k/0"])]) 1
        scope scope' before added after ∧
      Rule.withElseCoverage.check kernelSettings ⟨scope', .ofScope scope'⟩
        ⟨[0, 1, 0], kernelWith⟩ = [] := by
  have indexed : ModuleScope.ofModule (fun _ => false) (neighborModule []) = .ok _ := rfl
  have indexed' : ModuleScope.ofModule (fun _ => false)
      (neighborModule [importForm (.many [.text "k/0"])]) = .ok _ := rfl
  have inserts := insertsImport_importForm (.many [.text "k/0"])
  obtain ⟨before, added, after, declares, reach⟩ := insertedImport_reach inserts indexed indexed'
  exact ⟨_, _, before, added, after, inserts, indexed, indexed', declares, reach, by decide⟩

/-- The import in one function opens the names of the other one. -/
theorem coverage_differs_by_import_elsewhere :
    ∃ scope scope',
      (neighborModule []).InsertsImport 1 [] (importForm (.one .null))
        (neighborModule [importForm (.one .null)]) ∧
      ModuleScope.ofModule (fun _ => false) (neighborModule []) = .ok scope ∧
      ModuleScope.ofModule (fun _ => false) (neighborModule [importForm (.one .null)]) =
        .ok scope' ∧
      (neighborModule []).at? [0, 1, 0] = some kernelWith ∧
      (neighborModule [importForm (.one .null)]).at? [0, 1, 0] = some kernelWith ∧
      Rule.withElseCoverage.check kernelSettings ⟨scope, .ofScope scope⟩
        ⟨[0, 1, 0], kernelWith⟩ = [] ∧
      (Rule.withElseCoverage.check kernelSettings ⟨scope', .ofScope scope'⟩
        ⟨[0, 1, 0], kernelWith⟩).length = 1 := by
  have indexed : ModuleScope.ofModule (fun _ => false) (neighborModule []) = .ok _ := rfl
  have indexed' : ModuleScope.ofModule (fun _ => false)
      (neighborModule [importForm (.one .null)]) = .ok _ := rfl
  exact ⟨_, _, insertsImport_importForm (.one .null), indexed, indexed', rfl, rfl, by decide,
    by decide⟩

end StyleAudit
