import StyleAudit.Rule.Check

/-!
# What a rule reads

A rule reads few of the settings, and of the test for nested modules only its
answer about the module at hand, if that. `Rule.ReadsAlike` compares two sets
of settings as far as one rule reads them; settings that it reads alike lead to
the same findings (`findings_eq_of_readsAlike`).
-/

namespace StyleAudit

/-- The module judged by another test for nested modules. -/
def ModuleContext.judgedBy (context : ModuleContext) (isNested : String → Bool) :
    ModuleContext :=
  { context with scope := { context.scope with isNested := isNested context.scope.name } }

namespace Rule

/-- The rule cannot tell two sets of settings apart, nor two tests for nested
modules. -/
def ReadsAlike (left right : RuleSettings) (leftNested rightNested : String → Bool) :
    Rule → Prop
  | withElseCoverage | withElseRedundancy | withElseOrder | errorMapping =>
    ∀ name, name ∈ left.trusted ↔ name ∈ right.trusted
  | testCaseUsage => ∀ base, left.testSupport.lookup base = right.testSupport.lookup base
  | predicateNaming =>
    left.guardMark = right.guardMark ∧ left.predicateMark = right.predicateMark
  | optionFormat => ∀ name, name ∈ left.optionNames ↔ name ∈ right.optionNames
  | moduledocScope => ∀ name, leftNested name = rightNested name
  | _ => True

variable {left right : RuleSettings} {leftNested rightNested : String → Bool}

theorem ReadsAlike.refl (settings : RuleSettings) (isNested : String → Bool) (rule : Rule) :
    rule.ReadsAlike settings settings isNested isNested := by
  cases rule <;> simp [ReadsAlike]

theorem contains_eq_of_mem_iff {names others : List String}
    (same : ∀ name, name ∈ names ↔ name ∈ others) : names.contains = others.contains := by
  funext name
  rw [List.contains_eq_mem, List.contains_eq_mem, decide_eq_decide]
  exact same name

/-! ## Trusted modules -/

section Trusted

variable {trusted others : List String} (same : ∀ name, name ∈ trusted ↔ name ∈ others)
include same

theorem callOrigin_eq_of_mem_iff : callOrigin trusted = callOrigin others := by
  have sameTest := contains_eq_of_mem_iff same
  have sameAnswer : ∀ name, trusted.contains name = others.contains name :=
    congrFun sameTest
  funext scope call arity
  simp only [callOrigin, unqualifiedOrigin, sameTest, sameAnswer]

theorem ofExpression_eq_of_mem_iff : Target.ofExpression trusted = Target.ofExpression others := by
  funext scope pattern expression
  simp only [Target.ofExpression, callOrigin_eq_of_mem_iff same]

theorem withTargets_eq_of_mem_iff : withTargets trusted = withTargets others := by
  funext scope n
  simp only [withTargets, ofExpression_eq_of_mem_iff same]

theorem branchesAndTargets_eq_of_mem_iff :
    ErrorMapping.branchesAndTargets trusted = ErrorMapping.branchesAndTargets others := by
  funext scope n
  simp only [ErrorMapping.branchesAndTargets, withTargets_eq_of_mem_iff same, caseTarget?,
    ofExpression_eq_of_mem_iff same]

end Trusted

/-! ## Option names -/

theorem namesOptions_eq_of_mem_iff {names others : List String}
    (same : ∀ name, name ∈ names ↔ name ∈ others) :
    OptionFormat.namesOptions names = OptionFormat.namesOptions others := by
  have sameAnswer : ∀ name, names.contains name = others.contains name :=
    congrFun (contains_eq_of_mem_iff same)
  funext n
  fun_induction OptionFormat.namesOptions names n with
  | case1 _ _ left right _ leftSame rightSame =>
      rw [OptionFormat.namesOptions, leftSame, rightSame]
  | case2 => rw [OptionFormat.namesOptions, sameAnswer]
  | case3 n noMatch noVariable => rw [OptionFormat.namesOptions] <;> assumption

theorem takesOptionMap_eq_of_mem_iff {names others : List String}
    (same : ∀ name, name ∈ names ↔ name ∈ others) :
    OptionFormat.takesOptionMap names = OptionFormat.takesOptionMap others := by
  have sameNames := namesOptions_eq_of_mem_iff same
  funext n
  fun_induction OptionFormat.takesOptionMap names n with
  | case1 _ _ pattern value _ patternSame =>
      rw [OptionFormat.takesOptionMap, sameNames, patternSame]
  | case2 => rw [OptionFormat.takesOptionMap, sameNames]
  | case3 n noDefault noMatch => rw [OptionFormat.takesOptionMap] <;> assumption

/-! ## Findings -/

theorem findings_judgedBy {rule : Rule} (settings : RuleSettings) (context : ModuleContext)
    (site : Site) (other : rule ≠ moduledocScope) :
    rule.findings settings (context.judgedBy leftNested) site =
      rule.findings settings context site := by
  cases rule <;> first | rfl | exact absurd rfl other

/-- A rule finds the same under all settings that it reads alike. -/
theorem findings_eq_of_readsAlike {rule : Rule}
    (alike : rule.ReadsAlike left right leftNested rightNested) (context : ModuleContext)
    (site : Site) :
    rule.findings left (context.judgedBy leftNested) site =
      rule.findings right (context.judgedBy rightNested) site := by
  by_cases nestedModule : rule = moduledocScope
  · subst nestedModule
    have sameContext : context.judgedBy leftNested = context.judgedBy rightNested := by
      rw [ModuleContext.judgedBy, ModuleContext.judgedBy, alike context.scope.name]
    rw [sameContext]
    rfl
  · rw [findings_judgedBy left context site nestedModule,
      findings_judgedBy right context site nestedModule]
    cases rule with
    | withElseCoverage =>
        simp only [findings, WithElse.coverage, withTargets_eq_of_mem_iff alike]
    | withElseRedundancy =>
        simp only [findings, WithElse.redundancy, withTargets_eq_of_mem_iff alike]
    | withElseOrder =>
        simp only [findings, WithElse.order, withTargets_eq_of_mem_iff alike]
    | errorMapping =>
        simp only [findings, ErrorMapping.check, branchesAndTargets_eq_of_mem_iff alike]
    | testCaseUsage =>
        have sameEntry : ∀ base, left.testSupport.lookup base = right.testSupport.lookup base :=
          alike
        simp only [findings, ModuleForm.testCaseUsage, ModuleForm.capability?, sameEntry]
    | predicateNaming =>
        obtain ⟨sameGuard, samePredicate⟩ := alike
        simp only [findings, Naming.predicate, Naming.predicateProblems, sameGuard, samePredicate]
    | optionFormat =>
        simp only [findings, OptionFormat.check, takesOptionMap_eq_of_mem_iff alike]
    | moduledocScope => exact absurd rfl nestedModule
    | _ => rfl

end Rule
end StyleAudit
