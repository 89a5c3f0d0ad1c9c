import StyleAudit.Proofs.Audit.RuleRecords
import StyleAudit.Proofs.Module.ImportIndex

/-!
# The rule on imports

An import is broad if no function stands above it or if it does not list what it needs. The
scope of a module declares each import of the module once, and an evaluation has one record
about each broad import and none about the others (`importScope_reports_broad`).
-/

namespace StyleAudit

variable {isNested : String → Bool} {m n : Node} {scope : ModuleScope} {way : NodePath}

/-- No function of the module stands above the import, or it imports all names. -/
def Node.ImportsBroadly (m : Node) (way : NodePath) (n : Node) : Prop :=
  ¬m.InFunction way ∨ n.attr "only" = .one .null ∨ n.attr "only" = .many []

namespace ModuleForm

theorem importScope_of_broad (declares : scope.DeclaresImports m) (own : m.IsOwn way n)
    (isImport : n.kind = .importDirective) (broad : m.ImportsBroadly way n) :
    ∃ message, importScope scope ⟨way, n⟩ = [⟨n.span, message⟩] := by
  obtain ⟨decl, -, found, -, -, inFunction, unrestricted⟩ := declares.each way n own isImport
  rw [importScope, found]
  dsimp only
  by_cases inside : m.InFunction way
  · rw [inFunction.mpr inside, unrestricted.mpr (broad.resolve_left (not_not_intro inside))]
    exact ⟨_, rfl⟩
  · rw [Bool.eq_false_iff.mpr (inFunction.not.mpr inside)]
    exact ⟨_, rfl⟩

/-- An import that is not broad is not reported. -/
theorem importScope_of_not_broad (declares : scope.DeclaresImports m) (own : m.IsOwn way n)
    (isImport : n.kind = .importDirective) (narrow : ¬m.ImportsBroadly way n) :
    importScope scope ⟨way, n⟩ = [] := by
  obtain ⟨decl, -, found, -, -, inFunction, unrestricted⟩ := declares.each way n own isImport
  rw [Node.ImportsBroadly, not_or, not_not] at narrow
  have restricted : decl.isRestricted = true := by
    rw [← Bool.not_eq_false]
    exact unrestricted.not.mpr narrow.2
  rw [importScope, found]
  dsimp only
  rw [inFunction.mpr narrow.1, restricted]
  rfl

/-- About each broad import of a module that can be indexed an evaluation has one record, at
the import, and no other record of the rule is about a node of the module. -/
theorem importScope_reports_broad (indexed : ModuleScope.ofModule isNested m = .ok scope) :
    scope.DeclaresImports m ∧
      ∀ config : Config, Rule.importScope.id ∉ config.disabled →
        ∀ tree path, Catalog.Reaches isNested tree path m →
          ∃ found, (Catalog.ofConfig config).evaluate isNested tree = .ok found ∧
            found.filter (·.ruleId == Rule.importScope.id) = tree.positions.flatMap
              ((Catalog.ofConfig config).recordsOf isNested tree .importScope) ∧
            ∀ way n, m.IsOwn way n →
              (n.kind = .importDirective → m.ImportsBroadly way n → ∃ message,
                (Catalog.ofConfig config).recordsOf isNested tree .importScope (path ++ way) =
                  [Rule.importScope.report ⟨n.span, message⟩]) ∧
              (¬(n.kind = .importDirective ∧ m.ImportsBroadly way n) →
                (Catalog.ofConfig config).recordsOf isNested tree .importScope (path ++ way) =
                  []) := by
  have declares := declaresImports_of_ofModule indexed
  refine ⟨declares, ?_⟩
  intro config isEnabled tree path reaches
  obtain ⟨found, returned, records⟩ := reaches.exists_evaluate (Catalog.ofConfig config)
  refine ⟨found, returned, records .importScope, ?_⟩
  intro way n own
  have looksAt : n.kind ∈ Rule.importScope.kinds ↔ n.kind = .importDirective :=
    List.mem_singleton
  rw [reaches.recordsOf_ofConfig indexed own]
  constructor
  · intro isImport broad
    obtain ⟨message, reported⟩ := importScope_of_broad declares own isImport broad
    refine ⟨message, ?_⟩
    rw [if_pos ⟨isEnabled, looksAt.mpr isImport⟩, Rule.check, Rule.findings, reported]
    rfl
  · intro quiet
    by_cases isImport : n.kind = .importDirective
    · rw [if_pos ⟨isEnabled, looksAt.mpr isImport⟩, Rule.check, Rule.findings,
        importScope_of_not_broad declares own isImport fun broad => quiet ⟨isImport, broad⟩]
      rfl
    · rw [if_neg fun both => isImport (looksAt.mp both.2)]

/-- An import of all names. -/
def broadImport : Node :=
  ⟨.importDirective, default, [("module", .one (.text "C")), ("only", .many [])], []⟩

/-- An import of one function, with another import below it. -/
def listingImport : Node :=
  ⟨.importDirective, default, [("module", .one (.text "B")), ("only", .one (.text "g/1"))],
    [broadImport]⟩

/-- A module with imports in a function. -/
def importerInFunction : Node :=
  ⟨.module, default, [("name", .one (.text "A"))], [
    ⟨.function, default, [("name", .one (.text "f"))],
      [⟨.list, default, [], []⟩, listingImport]⟩]⟩

theorem importScope_reports_broad_inFunction :
    ∃ found message,
      (Catalog.ofConfig .plain).evaluate (fun _ => false) importerInFunction = .ok found ∧
      (Catalog.ofConfig .plain).recordsOf (fun _ => false) importerInFunction .importScope
          [0, 1] = [] ∧
      (Catalog.ofConfig .plain).recordsOf (fun _ => false) importerInFunction .importScope
          [0, 1, 0] = [Rule.importScope.report ⟨default, message⟩] := by
  have indexed : ModuleScope.ofModule (fun _ => false) importerInFunction = .ok _ := rfl
  have returned : (Catalog.ofConfig .plain).evaluate (fun _ => false) importerInFunction =
      .ok [Rule.importScope.report ⟨default, "import C without `only:`; " ++
        "list the functions you need."⟩] := by
    decide +kernel
  obtain ⟨-, judged⟩ := importScope_reports_broad indexed
  obtain ⟨found, again, -, each⟩ := judged .plain (by decide) importerInFunction []
    (Catalog.reaches_self returned)
  obtain ⟨message, reported⟩ := (each [0, 1, 0] broadImport ⟨rfl, rfl⟩).1 rfl
    (Or.inr (Or.inr rfl))
  refine ⟨found, message, again, (each [0, 1] listingImport ⟨rfl, rfl⟩).2 ?_, reported⟩
  rintro ⟨-, outside | noList | noList⟩
  · exact outside ⟨[0], [1], _, rfl, by decide, rfl, rfl⟩
  · cases noList
  · cases noList

end ModuleForm
end StyleAudit
