import StyleAudit.Proofs.Audit.Independence
import StyleAudit.Proofs.Audit.Sitewise
import StyleAudit.Proofs.Rule.CallOrigin
import StyleAudit.Proofs.Rule.Trust

/-!
# Evaluations that trust more modules

A tree is evaluated twice, the second time with more modules trusted. Warnings
about other modules can only go, complaints about a superfluous `else` can only
come, and all other records are the same (`evaluate_trusting`).
-/

namespace StyleAudit

/-- The records found when more modules are trusted, compared with those
found before. -/
structure TrustsMore (found others : List Violation) : Prop where
  /-- Nothing new is reported about calls whose failures are not known. -/
  warned : ∀ rule : Rule, rule = .withElseCoverage ∨ rule = .errorMapping →
    ((Report.selected (· == rule.id) others).map Violation.place).Sublist
      ((Report.selected (· == rule.id) found).map Violation.place)
  /-- Every `else` that was superfluous still is. -/
  superfluous :
    (Report.selected (· == Rule.withElseRedundancy.id) found).Sublist
      (Report.selected (· == Rule.withElseRedundancy.id) others)
  /-- The records of all other rules, and those of the engine, are the same. -/
  unchanged : ∀ keep : String → Bool, keep Rule.withElseCoverage.id = false →
    keep Rule.errorMapping.id = false → keep Rule.withElseRedundancy.id = false →
      Report.selected keep found = Report.selected keep others

namespace TrustsMore

variable {found others laterFound laterOthers : List Violation}

theorem refl (found : List Violation) : TrustsMore found found :=
  ⟨fun _ _ => List.Sublist.refl _, List.Sublist.refl _, fun _ _ _ _ => rfl⟩

theorem append (first : TrustsMore found others) (later : TrustsMore laterFound laterOthers) :
    TrustsMore (found ++ laterFound) (others ++ laterOthers) := by
  refine ⟨?_, ?_, ?_⟩
  · intro rule warns
    rw [Report.selected_append, Report.selected_append, List.map_append, List.map_append]
    exact (first.warned rule warns).append (later.warned rule warns)
  · rw [Report.selected_append, Report.selected_append]
    exact first.superfluous.append later.superfluous
  · intro keep noCoverage noMapping noRedundancy
    rw [Report.selected_append, Report.selected_append,
      first.unchanged keep noCoverage noMapping noRedundancy,
      later.unchanged keep noCoverage noMapping noRedundancy]

theorem flatMap {item : Type} {items : List item} {records moreRecords : item → List Violation}
    (each : ∀ given ∈ items, TrustsMore (records given) (moreRecords given)) :
    TrustsMore (items.flatMap records) (items.flatMap moreRecords) := by
  induction items with
  | nil => exact refl []
  | cons given rest inductionHypothesis =>
      rw [List.flatMap_cons, List.flatMap_cons]
      apply append (each given List.mem_cons_self)
      exact inductionHypothesis fun other member => each other (List.mem_cons_of_mem given member)

end TrustsMore

/-! ## Rules -/

/-- The settings with other trusted modules. -/
def RuleSettings.trusting (settings : RuleSettings) (more : List String) : RuleSettings :=
  { settings with trusted := more }

section Rules

variable {settings : RuleSettings} {more : List String} {context : ModuleContext} {site : Site}

theorem Rule.findings_trusting {rule : Rule} (other : rule ≠ withElseCoverage)
    (notMapping : rule ≠ errorMapping) (notRedundancy : rule ≠ withElseRedundancy) :
    rule.findings settings context site = rule.findings (settings.trusting more) context site := by
  cases rule with
  | withElseCoverage => exact absurd rfl other
  | errorMapping => exact absurd rfl notMapping
  | withElseRedundancy => exact absurd rfl notRedundancy
  | withElseOrder =>
      have sameOrder := WithElse.order_eq_of_trusted settings.trusted more
      exact congrFun (congrFun sameOrder context.scope) site.node
  | _ => rfl

/-- The records of one rule only matter to what is said of this rule. -/
theorem TrustsMore.of_rule {rule : Rule} {records others : List Finding}
    (warned : rule = .withElseCoverage ∨ rule = .errorMapping →
      (others.map (·.span)).Sublist (records.map (·.span)))
    (superfluous : rule = .withElseRedundancy → records.Sublist others)
    (unchanged : rule ≠ .withElseCoverage → rule ≠ .errorMapping →
      rule ≠ .withElseRedundancy → records = others) :
    TrustsMore (records.map rule.report) (others.map rule.report) := by
  have places : ∀ findings : List Finding, (findings.map rule.report).map Violation.place =
      (findings.map (·.span)).map (Prod.mk rule.id) := by
    intro findings
    rw [List.map_map, List.map_map]
    rfl
  refine ⟨?_, ?_, ?_⟩
  · intro warning warns
    rw [Catalog.selected_map_report, Catalog.selected_map_report]
    split
    · rename_i own
      rw [places, places]
      rw [← Rule.id_injective (beq_iff_eq.mp own)] at warns
      exact (warned warns).map _
    · exact List.Sublist.refl _
  · rw [Catalog.selected_map_report, Catalog.selected_map_report]
    split
    · rename_i own
      exact (superfluous (Rule.id_injective (beq_iff_eq.mp own))).map _
    · exact List.Sublist.refl _
  · intro keep noCoverage noMapping noRedundancy
    rw [Catalog.selected_map_report, Catalog.selected_map_report]
    split
    · rename_i kept
      have apart : ∀ other : Rule, keep other.id = false → rule ≠ other := by
        rintro other left rfl
        rw [kept] at left
        cases left
      rw [unchanged (apart _ noCoverage) (apart _ noMapping) (apart _ noRedundancy)]
    · rfl

theorem Rule.check_trustsMore (grows : settings.trusted ⊆ more) (rule : Rule) :
    TrustsMore (rule.check settings context site)
      (rule.check (settings.trusting more) context site) := by
  apply TrustsMore.of_rule
  · intro warns
    rcases warns with rfl | rfl
    · exact WithElse.coverage_spans_sublist grows context.scope site.node
    · exact ErrorMapping.check_spans_sublist grows context.scope site.node
  · rintro rfl
    exact WithElse.redundancy_sublist grows context.scope site.node
  · exact findings_trusting

end Rules

/-! ## Evaluation -/

namespace Catalog

variable {catalog : Catalog} {isNested : String → Bool} {more : List String} {tree : Node}

/-- The catalog with other trusted modules. -/
def trusting (catalog : Catalog) (more : List String) : Catalog :=
  { catalog with settings := catalog.settings.trusting more }

/-- At every site the catalog with more trusted modules reports as `TrustsMore` says. -/
theorem recordsIn_trustsMore (grows : catalog.settings.trusted ⊆ more) (m : Node) (site : Site) :
    TrustsMore (catalog.recordsIn isNested m site)
      ((catalog.trusting more).recordsIn isNested m site) := by
  rw [recordsIn, recordsIn]
  cases ModuleScope.ofModule isNested m with
  | error _ => exact TrustsMore.refl []
  | ok scope =>
      apply TrustsMore.flatMap
      intro rule _
      split
      · exact rule.check_trustsMore grows
      · exact TrustsMore.refl []

theorem recordsAt_trustsMore (grows : catalog.settings.trusted ⊆ more) (path : NodePath) :
    TrustsMore (catalog.recordsAt isNested tree path)
      ((catalog.trusting more).recordsAt isNested tree path) := by
  rw [recordsAt, recordsAt]
  split
  · exact TrustsMore.refl _
  · exact TrustsMore.refl _
  · split
    · exact recordsIn_trustsMore grows _ _
    · exact TrustsMore.refl []

/-- The faults that stop an evaluation are those of the modules: no rule has a
part in them. -/
theorem evaluate_eq_error_iff (left right : Catalog) {fault : UnreadableArity} :
    left.evaluate isNested tree = .error fault ↔ right.evaluate isNested tree = .error fault := by
  have onlyEngine : ∀ given : Catalog, Sees (· == engineRuleId) given ⟨[], left.settings⟩
      isNested isNested := by
    intro given context site
    have nothing : check ⟨[], left.settings⟩ (context.judgedBy isNested) site = [] := rfl
    rw [nothing, check, Report.selected, List.filter_flatMap, eq_comm, List.flatMap_eq_nil_iff]
    intro rule _
    have noEngine : (rule.id == engineRuleId) = false :=
      beq_eq_false_iff_ne.mpr rule.id_ne_engineRuleId
    have own : Report.selected (· == engineRuleId)
        (rule.check given.settings (context.judgedBy isNested) site) = _ :=
      selected_check given.settings (context.judgedBy isNested) site rule
    rw [noEngine] at own
    exact own
  have stops : ∀ given : Catalog, given.evaluate isNested tree = .error fault ↔
      evaluate ⟨[], left.settings⟩ isNested tree = .error fault := by
    intro given
    rw [evaluate_of_sees (onlyEngine given) (beq_self_eq_true _), Outcome.map_eq_error_iff]
  rw [stops left, stops right]

/-- Trusting more modules never adds a warning about calls into other modules,
takes no complaint about a superfluous `else` away and changes nothing else. -/
theorem evaluate_trusting (catalog : Catalog) (isNested : String → Bool) (tree : Node)
    (more : List String) (grows : catalog.settings.trusted ⊆ more) :
    (∀ fault, catalog.evaluate isNested tree = .error fault ↔
      (catalog.trusting more).evaluate isNested tree = .error fault) ∧
    ∀ found, catalog.evaluate isNested tree = .ok found →
      ∃ others, (catalog.trusting more).evaluate isNested tree = .ok others ∧
        TrustsMore found others := by
  refine ⟨fun fault => evaluate_eq_error_iff _ _, ?_⟩
  intro found returned
  cases later : (catalog.trusting more).evaluate isNested tree with
  | error fault =>
      rw [evaluate_eq_error_iff _ catalog, returned] at later
      cases later
  | ok others =>
      refine ⟨others, rfl, ?_⟩
      rw [eq_flatMap_of_evaluate returned, eq_flatMap_of_evaluate later]
      apply TrustsMore.flatMap
      intro path _
      exact recordsAt_trustsMore grows path

/-- The call of an imported function is reported unless its module is
trusted. -/
theorem evaluate_trusting_dispatching :
    ∃ found others,
      (Engine.ofDefaults.catalog.trusting []).evaluate (fun _ => false)
        (moduleOf dispatchingForms) = .ok found ∧
      (Engine.ofDefaults.catalog.trusting ["B"]).evaluate (fun _ => false)
        (moduleOf dispatchingForms) = .ok others ∧
      (Report.selected (· == Rule.withElseCoverage.id) found).map (·.span) = [lineSpan 4] ∧
      Report.selected (· == Rule.withElseCoverage.id) others = [] ∧ TrustsMore found others := by
  have evaluated : ((Engine.ofDefaults.catalog.trusting []).evaluate (fun _ => false)
      (moduleOf dispatchingForms)).map (fun found =>
        (Report.selected (· == Rule.withElseCoverage.id) found).map (·.span)) =
      .ok [lineSpan 4] := by
    decide +kernel
  have evaluatedTrusting : ((Engine.ofDefaults.catalog.trusting ["B"]).evaluate (fun _ => false)
      (moduleOf dispatchingForms)).map (Report.selected (· == Rule.withElseCoverage.id)) =
      .ok [] := by
    decide +kernel
  obtain ⟨found, returned, reported⟩ := Outcome.map_eq_ok_iff.mp evaluated
  obtain ⟨_, trusting⟩ := evaluate_trusting (Engine.ofDefaults.catalog.trusting [])
    (fun _ => false) (moduleOf dispatchingForms) ["B"] (List.nil_subset _)
  obtain ⟨others, othersReturned, trustsMore⟩ := trusting found returned
  obtain ⟨_, sameReturned, nothing⟩ := Outcome.map_eq_ok_iff.mp evaluatedTrusting
  cases Except.ok.inj (othersReturned.symm.trans sameReturned)
  exact ⟨found, others, returned, othersReturned, reported, nothing, trustsMore⟩

end Catalog
end StyleAudit
