import StyleAudit.Proofs.Audit.DispatchTable
import StyleAudit.Proofs.Audit.Share
import StyleAudit.Proofs.Module.Scope
import StyleAudit.Proofs.Report.Selection
import StyleAudit.Proofs.Rule.Footprint

/-!
# Rules do not depend on each other

Two engines are compared by what they find in every tree: `Engine.Yields` holds
when the right one finds what the left one does, the records of some rules left
out. Then the same is true of their reports (`analyze_of_yields`).

An engine yields its own restriction to some rules, and two engines with the
same settings for these rules yield the same restriction. This is how
`analyze_shared_and_disabled_rules` compares the engines of two
configurations.
-/

namespace StyleAudit

/-- The report with the records of the rules that are kept. -/
def FileReport.selected (keep : String → Bool) (report : FileReport) : FileReport :=
  { report with violations := Report.selected keep report.violations }

/-- The test for nested modules has no part in indexing a module, it only has a
say about the scope. -/
theorem ofModule_judgedBy (leftNested rightNested : String → Bool) (m : Node) :
    (∃ fault, ModuleScope.ofModule leftNested m = .error fault ∧
      ModuleScope.ofModule rightNested m = .error fault) ∨
    ∃ scope : ModuleScope,
      ModuleScope.ofModule leftNested m =
        .ok { scope with isNested := leftNested scope.name } ∧
      ModuleScope.ofModule rightNested m =
        .ok { scope with isNested := rightNested scope.name } := by
  by_cases isModule : m.kind = .module
  · rw [ofModule_eq_ofParts leftNested isModule, ofModule_eq_ofParts rightNested isModule]
    cases confine (groupClauses (clausesOf m.children)) with
    | error fault => exact Or.inl ⟨fault, rfl, rfl⟩
    | ok functions =>
        cases (importsOf m).mapM ImportDecl.ofDirective with
        | error fault => exact Or.inl ⟨fault, rfl, rfl⟩
        | ok imports => exact Or.inr ⟨.ofParts leftNested m functions imports, rfl, rfl⟩
  · rw [ModuleScope.ofModule, ModuleScope.ofModule, if_pos isModule, if_pos isModule]
    exact Or.inl ⟨_, rfl, rfl⟩

namespace Catalog

variable {left right : Catalog} {leftNested rightNested : String → Bool}
  {keep : String → Bool} {context : Option ModuleContext} {path : NodePath} {n : Node}

/-- The right catalog finds in every module what the left one does, as far as
it concerns some rules. -/
def Sees (keep : String → Bool) (left right : Catalog) (leftNested rightNested : String → Bool) :
    Prop :=
  ∀ (context : ModuleContext) (site : Site),
    right.check (context.judgedBy rightNested) site =
      Report.selected keep (left.check (context.judgedBy leftNested) site)

theorem evaluateAll_of_sees {ns : List Node}
    (each : ∀ n ∈ ns, ∀ path,
      right.evaluateNode rightNested (context.map (·.judgedBy rightNested)) path n =
        (left.evaluateNode leftNested (context.map (·.judgedBy leftNested)) path n).map
          (Report.selected keep)) (path : NodePath) (position : Nat) :
    right.evaluateAll rightNested (context.map (·.judgedBy rightNested)) path position ns =
      (left.evaluateAll leftNested (context.map (·.judgedBy leftNested)) path position ns).map
        (Report.selected keep) := by
  induction ns generalizing position with
  | nil => rfl
  | cons first rest inductionHypothesis =>
      have firstSame := each first List.mem_cons_self (path ++ [position])
      have restSame := inductionHypothesis
        (fun n member => each n (List.mem_cons_of_mem first member)) (position + 1)
      rw [evaluateAll, evaluateAll, firstSame, restSame]
      cases left.evaluateNode leftNested (context.map (·.judgedBy leftNested))
          (path ++ [position]) first with
      | error fault => rfl
      | ok here =>
          cases left.evaluateAll leftNested (context.map (·.judgedBy leftNested)) path
              (position + 1) rest with
          | error fault => rfl
          | ok others => exact congrArg Except.ok (Report.selected_append here others).symm

theorem evaluated_of_parts {leftBelow rightBelow : Except UnreadableArity (List Violation)}
    {leftOwn rightOwn : List Violation}
    (below : rightBelow = leftBelow.map (Report.selected keep))
    (own : rightOwn = Report.selected keep leftOwn) :
    (do let found ← rightBelow; return rightOwn ++ found) =
      (do let found ← leftBelow; return leftOwn ++ found : Except UnreadableArity _).map
        (Report.selected keep) := by
  rw [below, own]
  cases leftBelow with
  | error fault => rfl
  | ok found => exact congrArg Except.ok (Report.selected_append leftOwn found).symm

/-- By induction on the tree: an evaluation that sees no more than another one yields
the records of the other that are kept. -/
theorem evaluateNode_of_sees (sees : Sees keep left right leftNested rightNested)
    (engineKept : keep engineRuleId = true) :
    right.evaluateNode rightNested (context.map (·.judgedBy rightNested)) path n =
      (left.evaluateNode leftNested (context.map (·.judgedBy leftNested)) path n).map
        (Report.selected keep) := by
  induction n using Node.childInduction generalizing context path with
  | step n inductionHypothesis =>
      have below : ∀ context : Option ModuleContext, _ := fun context =>
        evaluateAll_of_sees fun child member _ =>
          @inductionHypothesis child member context _
      by_cases isModule : n.kind = .module
      · rw [evaluateNode_of_module isModule, evaluateNode_of_module isModule]
        rcases ofModule_judgedBy leftNested rightNested n with ⟨fault, leftFails, rightFails⟩ |
          ⟨scope, leftIndexed, rightIndexed⟩
        · rw [leftFails, rightFails]
          cases fault with
          | arity fault => rfl
          | confined fault =>
              exact congrArg Except.ok (Report.selected_engineError engineKept _ _).symm
        · rw [leftIndexed, rightIndexed]
          have inside := below (some ⟨scope, CallGraph.ofScope scope⟩) [] 0
          have found := sees ⟨scope, CallGraph.ofScope scope⟩ ⟨[], n⟩
          exact evaluated_of_parts inside found
      · rw [evaluateNode_of_not_module isModule, evaluateNode_of_not_module isModule]
        have found : right.ownRecords ⟨path, n⟩ (context.map (·.judgedBy rightNested)) =
            Report.selected keep
              (left.ownRecords ⟨path, n⟩ (context.map (·.judgedBy leftNested))) := by
          cases context with
          | none => rfl
          | some inModule => exact sees inModule ⟨path, n⟩
        exact evaluated_of_parts (below context path 0) found

theorem evaluate_of_sees (sees : Sees keep left right leftNested rightNested)
    (engineKept : keep engineRuleId = true) (n : Node) :
    right.evaluate rightNested n =
      (left.evaluate leftNested n).map (Report.selected keep) := by
  have outside : (none : Option ModuleContext).map (·.judgedBy rightNested) = none := rfl
  rw [evaluate_eq_evaluateNode, evaluate_eq_evaluateNode, ← outside]
  exact evaluateNode_of_sees sees engineKept

/-! ## Catalogs with fewer rules -/

/-- The catalog with the rules that are kept. -/
def restricted (keep : String → Bool) (catalog : Catalog) : Catalog :=
  { catalog with rules := catalog.rules.filter fun rule => keep rule.id }

theorem selected_map_report (rule : Rule) (findings : List Finding) :
    Report.selected keep (findings.map rule.report) =
      if keep rule.id then findings.map rule.report else [] := by
  rw [Report.selected, List.filter_map]
  cases kept : keep rule.id with
  | true => simp [Function.comp_def, Rule.report, kept]
  | false => simp [Function.comp_def, Rule.report, kept]

theorem selected_check (settings : RuleSettings) (inModule : ModuleContext) (site : Site)
    (rule : Rule) :
    Report.selected keep (rule.check settings inModule site) =
      if keep rule.id then rule.check settings inModule site else [] :=
  selected_map_report rule _

/-- A catalog restricted to some rules reports their records among all that are
reported. -/
theorem check_restricted (catalog : Catalog) (inModule : ModuleContext) (site : Site) :
    (catalog.restricted keep).check inModule site =
      Report.selected keep (catalog.check inModule site) := by
  have eachRule : ∀ rule ∈ catalog.rulesFor site.node.kind,
      Report.selected keep (rule.check catalog.settings inModule site) =
        if keep rule.id = true then rule.check catalog.settings inModule site else [] :=
    fun rule _ => selected_check catalog.settings inModule site rule
  have sameRules : (catalog.restricted keep).rulesFor site.node.kind =
      (catalog.rulesFor site.node.kind).filter fun rule => decide (keep rule.id = true) := by
    rw [rulesFor_eq_filter, rulesFor_eq_filter, restricted, List.filter_filter, List.filter_filter]
    simp [Bool.and_comm]
  rw [check, check, sameRules, flatMap_filter_eq, Report.selected, List.filter_flatMap]
  exact (List.flatMap_congr eachRule).symm

theorem check_eq_of_readsAlike (sameRules : left.rules = right.rules)
    (alike : ∀ rule ∈ right.rules,
      rule.ReadsAlike left.settings right.settings leftNested rightNested)
    (inModule : ModuleContext) (site : Site) :
    right.check (inModule.judgedBy rightNested) site =
      left.check (inModule.judgedBy leftNested) site := by
  rw [check, check, rulesFor_eq_filter, rulesFor_eq_filter, sameRules]
  refine List.flatMap_congr ?_
  intro rule member
  have kept : rule ∈ right.rules := (List.mem_filter.mp member).1
  rw [Rule.check, Rule.check, Rule.findings_eq_of_readsAlike (alike rule kept)]

theorem sees_restricted (sameRules : (left.restricted keep).rules = (right.restricted keep).rules)
    (alike : ∀ rule ∈ (right.restricted keep).rules,
      rule.ReadsAlike left.settings right.settings leftNested rightNested) :
    Sees keep left (right.restricted keep) leftNested rightNested := by
  intro inModule site
  rw [← check_restricted]
  exact check_eq_of_readsAlike sameRules alike inModule site

theorem mem_rules_ofConfig_iff {config : Config} {rule : Rule} :
    rule ∈ (ofConfig config).rules ↔ rule.id ∉ config.disabled := by
  have isRule : rule ∈ Rule.all := by cases rule <;> decide
  rw [ofConfig, List.mem_filter]
  simp [isRule]

/-- Catalogs have those rules in common that are switched off in both of them or
in none. -/
theorem restricted_rules_eq {leftConfig rightConfig : Config}
    (same : ∀ rule : Rule, keep rule.id = true →
      (rule.id ∈ leftConfig.disabled ↔ rule.id ∈ rightConfig.disabled)) :
    ((ofConfig leftConfig).restricted keep).rules =
      ((ofConfig rightConfig).restricted keep).rules := by
  simp only [restricted, ofConfig, List.filter_filter]
  apply List.filter_congr
  intro rule _
  by_cases kept : keep rule.id = true
  · simp [kept, same rule kept]
  · simp [kept]

end Catalog

/-! ## Reports -/

namespace Engine

variable {left right : Engine} {keep : String → Bool} {raw : Value} {file : String}
  {cancel : Cancellation} {modules : List Value}

/-- Two engines without a budget, the right one of which finds in every tree
what the left one does, as far as it concerns some rules. -/
structure Yields (keep : String → Bool) (left right : Engine) : Prop where
  leftUnlimited : left.timeout = none
  rightUnlimited : right.timeout = none
  engineKept : keep engineRuleId = true
  sees : Catalog.Sees keep left.catalog right.catalog left.isNested right.isNested

/-- The share with the records of the rules that are kept. -/
def selectedShare (keep : String → Bool) (share : Share) : Share :=
  { share with violations := Report.selected keep share.violations }

/-- The tally with the records of the rules that are kept. -/
def selectedTally (keep : String → Bool) (tally : Tally) : Tally :=
  { tally with violations := Report.selected keep tally.violations }

theorem share_of_yields (yields : Yields keep left right) (file : String) (raw : Value) :
    right.share file none raw = (left.share file none raw).map (selectedShare keep) := by
  rw [share, share]
  cases Node.normalize raw (some file) with
  | error failure =>
      have kept := Report.selected_engineError yields.engineKept
      simp [malformedRecord, Except.map, selectedShare, kept]
  | ok n =>
      by_cases isModule : n.kind = .module
      · simp only [isModule, Catalog.evaluate_of_sees yields.sees yields.engineKept]
        cases left.catalog.evaluate left.isNested n with
        | error fault => rfl
        | ok found => rfl
      · have kept := Report.selected_engineError yields.engineKept
        simp [isModule, strayRecord, Except.map, selectedShare, kept]

theorem analyzeModules_of_yields (yields : Yields keep left right) (leftClock rightClock : Clock)
    (index leftTick rightTick : Nat) :
    right.analyzeModules file cancel rightClock index rightTick modules =
      (left.analyzeModules file cancel leftClock index leftTick modules).map
        (selectedTally keep) := by
  induction modules generalizing index leftTick rightTick with
  | nil => rfl
  | cons raw rest inductionHypothesis =>
      cases attends : cancel index with
      | true =>
          rw [analyzeModules, analyzeModules, attends]
          rfl
      | false =>
          obtain ⟨leftExceeded, leftLater, leftNone, leftStep⟩ :=
            analyzeModules_cons left file leftClock leftTick attends raw rest
          obtain ⟨rightExceeded, rightLater, rightNone, rightStep⟩ :=
            analyzeModules_cons right file rightClock rightTick attends raw rest
          rw [yields.leftUnlimited, or_self] at leftNone
          rw [yields.rightUnlimited, or_self] at rightNone
          rw [leftStep, rightStep, leftNone, rightNone, share_of_yields yields,
            inductionHypothesis (index + 1) leftLater rightLater]
          cases left.share file none raw with
          | error fault => rfl
          | ok share =>
              cases left.analyzeModules file cancel leftClock (index + 1) leftLater rest with
              | error fault => rfl
              | ok tally =>
                  simp [bind, Except.bind, pure, Except.pure, Except.map, selectedShare,
                    selectedTally, Report.selected_append]

/-- The report of an engine that yields the kept records of another one is what is
kept of the other report. -/
theorem analyze_of_yields (yields : Yields keep left right) (raw : Value) (file : Option String)
    (cancel : Cancellation) (leftClock rightClock : Clock) :
    right.analyze raw file cancel rightClock =
      (left.analyze raw file cancel leftClock).map (·.selected keep) := by
  cases split : splitModules raw file with
  | error fault =>
      rw [analyze, analyze, split]
      exact congrArg (fun found => Except.ok (FileReport.mk _ found 0 false))
        (Report.selected_engineError yields.engineKept _ _).symm
  | ok parts =>
      obtain ⟨modules, source⟩ := parts
      rw [analyze_of_split split, analyze_of_split split,
        analyzeModules_of_yields yields leftClock rightClock 0 0 0]
      cases left.analyzeModules source cancel leftClock 0 0 modules with
      | error fault => rfl
      | ok tally =>
          simp [bind, Except.bind, pure, Except.pure, Except.map, selectedTally,
            FileReport.selected, Report.selected_ofViolations]

/-! ## Engines of two configurations -/

/-- The engine with the rules that are kept. -/
def restricted (keep : String → Bool) (engine : Engine) : Engine :=
  { engine with catalog := engine.catalog.restricted keep }

theorem catalog_of_ofConfig {config : Config} {test : ContextTest} {engine : Engine}
    (built : ofConfig config test = .ok engine) : engine.catalog = Catalog.ofConfig config := by
  rw [ofConfig] at built
  obtain ⟨isNested, _, checked⟩ := Outcome.bind_eq_ok_iff.mp built
  simp only at checked
  cases unsupported : supportError? config (Catalog.ofConfig config) with
  | some error =>
      rw [unsupported] at checked
      cases checked
  | none =>
      cases budget : config.moduleTimeout? with
      | error fault =>
          rw [unsupported, budget] at checked
          cases checked
      | ok timeout =>
          rw [unsupported, budget] at checked
          cases checked
          rfl

theorem yields_restricted (leftUnlimited : left.timeout = none)
    (rightUnlimited : right.timeout = none) (engineKept : keep engineRuleId = true)
    (sameRules : (left.catalog.restricted keep).rules = (right.catalog.restricted keep).rules)
    (alike : ∀ rule ∈ (right.catalog.restricted keep).rules,
      rule.ReadsAlike left.catalog.settings right.catalog.settings left.isNested
        right.isNested) :
    Yields keep left (right.restricted keep) :=
  ⟨leftUnlimited, rightUnlimited, engineKept, Catalog.sees_restricted sameRules alike⟩

/-- Two engines agree on the records of a rule that both have and whose
settings they agree on, and on the records about modules. An engine that only
lacks some rules of the other one reports the same without their records. -/
theorem analyze_shared_and_disabled_rules (leftConfig rightConfig : Config)
    (leftTest rightTest : ContextTest) (left right : Engine)
    (leftBuilt : ofConfig leftConfig leftTest = .ok left)
    (rightBuilt : ofConfig rightConfig rightTest = .ok right)
    (leftUnlimited : left.timeout = none) (rightUnlimited : right.timeout = none)
    (raw : Value) (file : Option String) (cancel : Cancellation) (leftClock rightClock : Clock)
    (report : FileReport) (returned : left.analyze raw file cancel leftClock = .ok report) :
    (∀ rule ∈ left.catalog.rules, rule ∈ right.catalog.rules →
      rule.ReadsAlike leftConfig.ruleSettings rightConfig.ruleSettings left.isNested
        right.isNested →
      ∃ other, right.analyze raw file cancel rightClock = .ok other ∧
        other.violations.filter (·.ruleId == rule.id) =
          report.violations.filter (·.ruleId == rule.id) ∧
        other.violations.filter (·.ruleId == engineRuleId) =
          report.violations.filter (·.ruleId == engineRuleId)) ∧
    ∀ off : List String,
      (∀ id, id ∈ rightConfig.disabled ↔ id ∈ leftConfig.disabled ∨ id ∈ off) →
      (∀ rule ∈ right.catalog.rules,
        rule.ReadsAlike leftConfig.ruleSettings rightConfig.ruleSettings left.isNested
          right.isNested) →
      right.analyze raw file cancel rightClock =
        .ok { report with
          violations := report.violations.filter fun v =>
            v.ruleId == engineRuleId || !off.contains v.ruleId } := by
  have leftCatalog := catalog_of_ofConfig leftBuilt
  have rightCatalog := catalog_of_ofConfig rightBuilt
  constructor
  · intro rule leftEnabled rightEnabled alike
    rw [leftCatalog, Catalog.mem_rules_ofConfig_iff] at leftEnabled
    rw [rightCatalog, Catalog.mem_rules_ofConfig_iff] at rightEnabled
    let keep (id : String) : Bool := id == rule.id || id == engineRuleId
    have onlyRule : ∀ other : Rule, keep other.id = true → other = rule := by
      intro other kept
      have isEither : other.id = rule.id ∨ other.id = engineRuleId := by simpa [keep] using kept
      exact Rule.id_injective (isEither.resolve_right other.id_ne_engineRuleId)
    have sameRules : (left.catalog.restricted keep).rules =
        (right.catalog.restricted keep).rules := by
      rw [leftCatalog, rightCatalog]
      apply Catalog.restricted_rules_eq
      intro other kept
      rw [onlyRule other kept]
      exact iff_of_false leftEnabled rightEnabled
    have fromLeft : Yields keep left (right.restricted keep) := by
      refine yields_restricted leftUnlimited rightUnlimited (by simp [keep]) sameRules ?_
      intro other member
      rw [onlyRule other (List.mem_filter.mp member).2, leftCatalog, rightCatalog]
      exact alike
    have fromRight : Yields keep right (right.restricted keep) :=
      yields_restricted rightUnlimited rightUnlimited (by simp [keep]) rfl
        fun other _ => Rule.ReadsAlike.refl _ _ other
    have leftSelected := analyze_of_yields fromLeft raw file cancel leftClock rightClock
    have rightSelected := analyze_of_yields fromRight raw file cancel rightClock rightClock
    rw [leftSelected, returned] at rightSelected
    obtain ⟨other, otherReturned, same⟩ := Outcome.map_eq_ok_iff.mp rightSelected.symm
    have sameRecords : Report.selected keep other.violations =
        Report.selected keep report.violations :=
      congrArg FileReport.violations same
    exact ⟨other, otherReturned, Report.filter_eq_of_selected_eq sameRecords (by simp [keep]),
      Report.filter_eq_of_selected_eq sameRecords (by simp [keep])⟩
  · intro off disabled alike
    let keep (id : String) : Bool := id == engineRuleId || !off.contains id
    have remains : ∀ rule : Rule, keep rule.id = true → rule.id ∉ off := by
      intro rule kept
      simpa [keep, rule.id_ne_engineRuleId] using kept
    have sameRules : (left.catalog.restricted keep).rules =
        (right.catalog.restricted keep).rules := by
      rw [leftCatalog, rightCatalog]
      apply Catalog.restricted_rules_eq
      intro rule kept
      rw [disabled]
      simp [remains rule kept]
    have nothingLeftOut : right.catalog.rules.filter (fun rule => keep rule.id) =
        right.catalog.rules := by
      refine List.filter_eq_self.mpr ?_
      intro rule enabled
      rw [rightCatalog, Catalog.mem_rules_ofConfig_iff, disabled, not_or] at enabled
      simp [keep, enabled.2]
    have fromLeft : Yields keep left right := by
      have sameEngine : right.restricted keep = right := by
        rw [restricted, Catalog.restricted, nothingLeftOut]
      rw [← sameEngine]
      refine yields_restricted leftUnlimited rightUnlimited (by simp [keep]) sameRules ?_
      intro rule member
      have enabled : rule ∈ right.catalog.rules := (List.mem_filter.mp member).1
      rw [leftCatalog, rightCatalog]
      exact alike rule enabled
    rw [analyze_of_yields fromLeft raw file cancel leftClock rightClock, returned]
    rfl

/-- A dumped module with an import and two numbered variables. -/
def numberingModule : Value :=
  .table [("kind", .text "module"), ("line", .int 2), ("attributes", .table [("name", .text "A")]),
    ("children", .list [
      .table [("kind", .text "import"), ("line", .int 3),
        ("attributes", .table [("module", .text "B")])],
      .table [("kind", .text "match"), ("line", .int 4), ("children", .list [
        .table [("kind", .text "list"), ("children", .list [
          .table [("kind", .text "var"), ("attributes", .table [("name", .text "x1")])],
          .table [("kind", .text "var"), ("attributes", .table [("name", .text "x_2")])]])],
        .table [("kind", .text "list")]])]])]

/-- The engine of a project that switches the rule about imports off. -/
def ofDefaultsWithoutImports : Engine :=
  { ofDefaults with
    catalog := { ofDefaults.catalog with rules := Rule.all.erase .importScope } }

/-- The record of an item that is no module. -/
def brokenItem : Violation :=
  .engineError "malformed input: Raw tree root must be a mapping" ⟨"lib/a.ex", .origin⟩

/-- The record of the import in `numberingModule`. -/
def importOfNumbering : Violation :=
  Rule.importScope.report ⟨⟨"lib/a.ex", ⟨3, 1, 3, 1⟩⟩,
    "import B at module level; move it into the function that uses it."⟩

/-- The record of a variable in `numberingModule`. -/
def nameOfNumbering : Violation :=
  Rule.sequentialNaming.report ⟨⟨"lib/a.ex", ⟨4, 1, 4, 1⟩⟩,
    "`x1` is one of a numbered series; name it `x_1`."⟩

theorem analyze_shared_and_disabled_rules_imports :
    ofDefaults.analyze (sourceFileDump [] [.null, numberingModule]) (some "lib/a.ex") .never
        (fun _ => .zero false) =
      .ok ⟨"lib/a.ex", [brokenItem, importOfNumbering, nameOfNumbering], 1, false⟩ ∧
    ofDefaultsWithoutImports.analyze (sourceFileDump [] [.null, numberingModule])
        (some "lib/a.ex") .never (fun _ => .zero true) =
      .ok ⟨"lib/a.ex", [brokenItem, nameOfNumbering], 1, false⟩ ∧
    ∃ other, ofDefaultsWithoutImports.analyze (sourceFileDump [] [.null, numberingModule])
        (some "lib/a.ex") .never (fun _ => .zero true) = .ok other ∧
      other.violations.filter (·.ruleId == Rule.sequentialNaming.id) = [nameOfNumbering] ∧
      other.violations.filter (·.ruleId == engineRuleId) = [brokenItem] := by
  obtain ⟨leftConfig, _, leftBuilt, leftDisabled, leftSettings⟩ :
      ∃ config, Config.ofSection (withStandardSupport []) = .ok config ∧
        ofConfig config .standard = .ok ofDefaults ∧ config.disabled = [] ∧
        config.ruleSettings = ofDefaults.catalog.settings :=
    ⟨_, rfl, rfl, rfl, rfl⟩
  obtain ⟨rightConfig, _, rightBuilt, rightDisabled, rightSettings⟩ :
      ∃ config, Config.ofSection (withStandardSupport
          [("disabled_rules", .list [.text "import-scope"])]) = .ok config ∧
        ofConfig config .standard = .ok ofDefaultsWithoutImports ∧
        config.disabled = ["import-scope"] ∧
        config.ruleSettings = ofDefaults.catalog.settings :=
    ⟨_, rfl, rfl, rfl, rfl⟩
  have alike : ∀ rule : Rule, rule.ReadsAlike leftConfig.ruleSettings rightConfig.ruleSettings
      ofDefaults.isNested ofDefaultsWithoutImports.isNested := by
    intro rule
    rw [leftSettings, rightSettings]
    exact Rule.ReadsAlike.refl _ _ rule
  have evaluated : (ofDefaults.analyzeModules "lib/a.ex" .never (fun _ => .zero false) 0 0
      [.null, numberingModule]).map (fun tally =>
        (tally.violations, tally.modules, tally.cancelled)) =
          .ok ([brokenItem, importOfNumbering, nameOfNumbering], 1, false) := by
    decide +kernel
  have inOrder : Report.ofViolations [brokenItem, importOfNumbering, nameOfNumbering] =
      [brokenItem, importOfNumbering, nameOfNumbering] := by
    rw [Report.ofViolations, List.mergeSort_of_pairwise (by decide +kernel)]
    decide +kernel
  have returned : ofDefaults.analyze (sourceFileDump [] [.null, numberingModule])
      (some "lib/a.ex") .never (fun _ => .zero false) =
        .ok ⟨"lib/a.ex", [brokenItem, importOfNumbering, nameOfNumbering], 1, false⟩ := by
    obtain ⟨⟨violations, modules, cancelled⟩, tallied, same⟩ := Outcome.map_eq_ok_iff.mp evaluated
    cases same
    rw [analyze_of_split (splitModules_sourceFileDump [] _ _), tallied, Outcome.ok_bind, inOrder]
    rfl
  obtain ⟨shared, disabled⟩ := analyze_shared_and_disabled_rules leftConfig rightConfig .standard
    .standard ofDefaults ofDefaultsWithoutImports leftBuilt rightBuilt rfl rfl _ _ _ _
    (fun _ => .zero true) _ returned
  obtain ⟨other, otherReturned, sameNames, sameItems⟩ :=
    shared .sequentialNaming (by decide) (by decide) (alike _)
  have fewer := disabled ["import-scope"]
    (by simp [leftDisabled, rightDisabled]) fun rule _ => alike rule
  exact ⟨returned, fewer, other, otherReturned, sameNames, sameItems⟩

end Engine
end StyleAudit
