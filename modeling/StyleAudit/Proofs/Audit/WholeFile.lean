import StyleAudit.Proofs.Audit.Isolation
import StyleAudit.Proofs.Tree.Placement

/-!
# Modules read alone and modules of a whole file

The analysis of a file reads every module on its own, as if it stood at the
first position of the file, while a module without a range that is read with
its file covers the range of the file. Without a budget the report is that of
the tree whose modules are read alone; it is the tree of the whole file exactly
when nothing is inherited (`InheritsNothing`).
-/

namespace StyleAudit

/-! ## The modules of an accepted file -/

theorem kind_text_of_readKind {entries : List (String × Value)} {kind : Kind}
    (read : readKind entries = .ok kind) :
    ((entries.lookup "kind").getD .null).text? = some kind.name := by
  rw [readKind] at read
  cases word : ((entries.lookup "kind").getD .null).text? with
  | none =>
      rw [word] at read
      cases read
  | some word' =>
      rw [word, Option.bind_some] at read
      cases named : Kind.ofName? word' with
      | none =>
          rw [named] at read
          cases read
      | some found =>
          rw [named] at read
          cases read
          have same := List.find?_some named
          rw [beq_iff_eq] at same
          rw [same]

theorem splitModules_of_childList? {entries : List (String × Value)} {file : Option String}
    {source : String} {items : List Value} (read : readKind entries = .ok .sourceFile)
    (inFile : file.or (namedFile? (.table entries)) = some source)
    (found : childList? entries = some items) :
    splitModules (.table entries) file = .ok (items, source) := by
  have notModule : ¬Kind.sourceFile.name = Kind.module.name := by decide
  simp only [splitModules, inFile, kind_text_of_readKind read, Option.some.injEq, notModule,
    if_false, if_true]
  rw [childList?] at found
  cases listed : entries.lookup "children" with
  | none =>
      rw [listed] at found
      cases found
      rfl
  | some children =>
      rw [listed] at found
      cases children with
      | null =>
          cases found
          rfl
      | list modules =>
          cases found
          cases items with
          | nil => rfl
          | cons first rest => rfl
      | _ => cases found

theorem children_of_sourceFile {tree : Node} (shaped : tree.IsWellShaped)
    (isFile : tree.kind = .sourceFile) : ∀ child ∈ tree.children, child.kind = .module := by
  have fits := shaped.fits (Node.mem_preorder_self tree)
  rw [isFile] at fits
  exact fits.uniform .module rfl

/-- The modules of a file are evaluated one by one. -/
theorem Catalog.evaluateAll_of_modules {catalog : Catalog} {isNested : String → Bool}
    {context : Option ModuleContext} {path : NodePath} {position : Nat} {ns : List Node}
    {found : List Violation} (areModules : ∀ n ∈ ns, n.kind = .module) :
    catalog.evaluateAll isNested context path position ns = .ok found ↔
      ∃ parts, List.Forall₂ (fun n part => catalog.evaluate isNested n = .ok part) ns parts ∧
        parts.flatten = found := by
  rw [evaluateAll_eq_ok_iff]
  have sameParts : ∀ parts,
      List.Forall₂ (fun indexed part =>
          catalog.evaluateNode isNested context (path ++ [indexed.2]) indexed.1 = .ok part)
        (ns.zipIdx position) parts ↔
      List.Forall₂ (fun n part => catalog.evaluate isNested n = .ok part) ns parts := by
    clear found
    induction ns generalizing position with
    | nil =>
        intro parts
        rw [List.zipIdx_nil, List.forall₂_nil_left_iff, List.forall₂_nil_left_iff]
    | cons n rest inductionHypothesis =>
        intro parts
        have isModule := areModules n List.mem_cons_self
        have standsAlone : catalog.evaluateNode isNested context (path ++ [position]) n =
            catalog.evaluate isNested n := by
          rw [evaluate_eq_evaluateNode, evaluateNode_of_module isModule,
            evaluateNode_of_module isModule]
        rw [List.zipIdx_cons, List.forall₂_cons_left_iff, List.forall₂_cons_left_iff, standsAlone]
        simp only [inductionHypothesis fun other member =>
          areModules other (List.mem_cons_of_mem n member)]
  simp only [sameParts]

/-- A file is evaluated as its modules are, one after the other. -/
theorem Catalog.evaluate_of_sourceFile {catalog : Catalog} {isNested : String → Bool} {tree : Node}
    {found : List Violation} (isFile : tree.kind = .sourceFile)
    (areModules : ∀ n ∈ tree.children, n.kind = .module) :
    catalog.evaluate isNested tree = .ok found ↔
      ∃ parts,
        List.Forall₂ (fun n part => catalog.evaluate isNested n = .ok part) tree.children parts ∧
          parts.flatten = found := by
  have noModule : tree.kind ≠ .module := by
    rw [isFile]
    decide
  have oneByOne : catalog.evaluateAll isNested none [] 0 tree.children = .ok found ↔ _ :=
    evaluateAll_of_modules areModules
  rw [← oneByOne, evaluate_eq_evaluateNode, evaluateNode_of_not_module noModule]
  cases catalog.evaluateAll isNested none [] 0 tree.children <;> rfl

namespace Engine

variable {engine : Engine} {source : String} {items : List Value} {alone : List Node}
  {shares : List Share}

/-- The shares of modules that can be read are the records of their
evaluation. -/
theorem parts_of_shares
    (read : List.Forall₂ (fun item child => Node.normalize item (some source) = .ok child)
      items alone)
    (areModules : ∀ n ∈ alone, n.kind = .module)
    (shared : List.Forall₂ (fun item share => engine.share source none item = .ok share)
      items shares) :
    ∃ parts,
      List.Forall₂ (fun n part => engine.catalog.evaluate engine.isNested n = .ok part)
        alone parts ∧
      shares.flatMap (·.violations) = parts.flatten ∧
      (shares.map (·.modules)).sum = alone.length := by
  induction read generalizing shares with
  | nil =>
      cases shared
      exact ⟨[], List.Forall₂.nil, rfl, rfl⟩
  | cons here _ inductionHypothesis =>
      cases shared with
      | cons found others =>
          obtain ⟨parts, evaluated, violations, counted⟩ := inductionHypothesis
            (fun n member => areModules n (List.mem_cons_of_mem _ member)) others
          have isModule := areModules _ List.mem_cons_self
          rw [share, here] at found
          simp only [if_neg (not_not_intro isModule)] at found
          obtain ⟨part, partFound, same⟩ := Outcome.bind_eq_ok_iff.mp found
          cases same
          refine ⟨part :: parts, List.Forall₂.cons partFound evaluated, ?_, ?_⟩
          · rw [List.flatMap_cons, List.flatten_cons, violations]
          · rw [List.map_cons, List.sum_cons, List.length_cons, counted, Nat.add_comm]

/-- The modules of a file inherit no range that they would not have alone: the
file covers its first position only, or every module gives a range. -/
def InheritsNothing (tree : Node) (items : List Value) : Prop :=
  tree.span.coordinates = .origin ∨ ∀ item ∈ items, HasOwnRange item

/-- A file that is accepted as a whole is analyzed as the tree whose modules are
read alone. They are the modules of the whole, up to ranges, and the very same
when nothing is inherited: then the report is that of the whole tree. -/
theorem analyze_of_accepted_whole (engine : Engine) (unlimited : engine.timeout = none)
    (raw : Value) (file : Option String) (clock : Clock) (tree : Node) (report : FileReport)
    (accepted : Node.normalize raw file = .ok tree) (isFile : tree.kind = .sourceFile)
    (returned : engine.analyze raw file .never clock = .ok report) :
    ∃ source items alone found,
      splitModules raw file = .ok (items, source) ∧
      List.Forall₂ (fun item child => Node.normalize item (some source) = .ok child)
        items alone ∧
      List.Forall₂ Node.SameButSpans tree.children alone ∧
      engine.catalog.evaluate engine.isNested { tree with children := alone } = .ok found ∧
      report.violations = Report.ofViolations found ∧
      report.modules = tree.children.length ∧
      (alone = tree.children ↔ InheritsNothing tree items) ∧
      (InheritsNothing tree items →
        engine.catalog.evaluate engine.isNested tree = .ok found) := by
  obtain ⟨source, inFile, read⟩ := Node.normalize_eq_ok_iff.mp accepted
  obtain ⟨entries, items, rfl, found, kindRead, _, _, _, childrenRead, _⟩ :=
    normalizeNode_eq_ok_iff.mp read
  rw [isFile] at kindRead
  have split := splitModules_of_childList? kindRead inFile found
  -- Read alone, a module stands below the origin and not below the file.
  obtain ⟨alone, movedRead, sameButSpans⟩ :=
    Outcome.exists_forall₂_of_forall₂ childrenRead fun _ _ _ childRead =>
      normalizeNode_elsewhere childRead .origin
  have aloneRead :
      List.Forall₂ (fun item child => Node.normalize item (some source) = .ok child)
        items alone :=
    movedRead.imp fun _ _ childRead => Node.normalize_eq_ok_iff.mpr ⟨source, rfl, childRead⟩
  have areModules : ∀ n ∈ alone, n.kind = .module := by
    intro n member
    obtain ⟨child, childMember, same⟩ :=
      Outcome.exists_of_forall₂_of_mem_right sameButSpans member
    rw [← same.kind_eq]
    exact children_of_sourceFile (Node.isWellShaped_of_normalize accepted) isFile child childMember
  obtain ⟨shares, shared, rfl⟩ :=
    (analyze_unlimited_eq_ok_iff unlimited split).mp returned
  obtain ⟨parts, evaluated, violations, counted⟩ := parts_of_shares aloneRead areModules shared
  have evaluatedAlone :
      engine.catalog.evaluate engine.isNested { tree with children := alone } =
        .ok parts.flatten :=
    (@Catalog.evaluate_of_sourceFile _ _ { tree with children := alone } _ isFile
      areModules).mpr ⟨parts, evaluated, rfl⟩
  have sameTree : alone = tree.children ↔ InheritsNothing tree items :=
    siblings_elsewhere_eq_iff childrenRead movedRead
  refine ⟨source, items, alone, parts.flatten, split, aloneRead, sameButSpans, evaluatedAlone,
    ?_, ?_, sameTree, ?_⟩
  · rw [reportOf, violations]
  · rw [reportOf, counted, sameButSpans.length_eq]
  · intro placed
    cases tree
    rw [sameTree.mpr placed] at evaluatedAlone
    exact evaluatedAlone

/-- A dumped file that covers a line, with one module that gives no range. -/
def fileCovering (line : Int) : Value :=
  .table [("kind", .text "source_file"), ("line", .int line), ("attributes", .null),
    ("children", .list [.table [("kind", .text "module"),
      ("attributes", .table [("name", .text "A")]),
      ("children", .list [.table [("kind", .text "import"),
        ("attributes", .table [("module", .text "B")])]])]])]

/-- The record of the import at a line. -/
def importRecord (line : Nat) : Violation :=
  ⟨"import-scope", ⟨"lib/a.ex", ⟨line, 1, line, 1⟩⟩,
    "import B at module level; move it into the function that uses it.", .violation⟩

theorem analyze_of_accepted_whole_first_line :
    ∃ tree found,
      Node.normalize (fileCovering 1) (some "lib/a.ex") = .ok tree ∧
      ofDefaults.catalog.evaluate ofDefaults.isNested tree = .ok found ∧
      [importRecord 1] = Report.ofViolations found := by
  have returned : ofDefaults.analyze (fileCovering 1) (some "lib/a.ex") .never
      (fun _ => .zero false) = .ok ⟨"lib/a.ex", [importRecord 1], 1, false⟩ := by
    decide +kernel
  obtain ⟨source, items, alone, found, _, _, _, _, reported, _, _, whole⟩ :=
    analyze_of_accepted_whole ofDefaults rfl _ _ _ _ _ rfl rfl returned
  exact ⟨_, found, rfl, whole (Or.inl rfl), reported⟩

/-- In a file that covers its fifth line the import is reported at the first
one, where it stands for the analysis, and not where it stands in the tree of
the file. -/
theorem analyze_ignores_range_of_file :
    ∃ tree,
      Node.normalize (fileCovering 5) (some "lib/a.ex") = .ok tree ∧
      ofDefaults.catalog.evaluate ofDefaults.isNested tree = .ok [importRecord 5] ∧
      Report.ofViolations [importRecord 5] = [importRecord 5] ∧
      ofDefaults.analyze (fileCovering 5) (some "lib/a.ex") .never (fun _ => .zero false) =
        .ok ⟨"lib/a.ex", [importRecord 1], 1, false⟩ := by
  refine ⟨_, rfl, ?_, ?_, ?_⟩
  · decide +kernel
  · decide +kernel
  · decide +kernel

end Engine
end StyleAudit
