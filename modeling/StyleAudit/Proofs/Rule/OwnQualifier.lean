import StyleAudit.Proofs.Rule.PassedError

/-!
# Calls that name their own module

A call may name the module that it stands in (`ModuleScope.NamesItself`). Its
failures are known when the index has the function that it calls. Where it has not,
as for a function that a `use` brings in, the call counts as one into another
module: its errors are to be mapped and its failures to be covered by an `else`
(`treatsOwnCalls`).
-/

namespace StyleAudit

/-- The qualifier of the call is the name of the module or stands for it. -/
def ModuleScope.NamesItself (scope : ModuleScope) (call : Node) : Prop :=
  call.qualifier? = some scope.name ∨ call.qualifier? = some "__MODULE__"

variable {trusted : List String} {scope : ModuleScope} {n call : Node} {arity : Nat}
  {settings : RuleSettings} {context : ModuleContext} {site : Site}

/-! ## What is known of such a call -/

theorem ModuleScope.NamesItself.isLocal (namesItself : scope.NamesItself call) :
    scope.isLocal call.qualifier? = true := by
  rw [ModuleScope.isLocal]
  rcases namesItself with qualifier | qualifier <;> rw [qualifier, isLocalQualifier] <;> simp

/-- No import and no trusted module makes up for a function that is missing. -/
theorem ModuleScope.NamesItself.knowsFailures_iff (namesItself : scope.NamesItself call) :
    KnowsFailures trusted scope call arity ↔ scope.resolve? ⟨call.name, arity⟩ ≠ none := by
  have qualified : call.qualifier? ≠ none := by
    rcases namesItself with qualifier | qualifier <;> rw [qualifier] <;> exact Option.some_ne_none _
  constructor
  · intro known
    cases known with
    | own _ found => exact Option.isSome_iff_ne_none.mp found
    | qualified qualifier elsewhere =>
        rw [← qualifier, namesItself.isLocal] at elsewhere
        cases elsewhere
    | imported unqualified => exact absurd unqualified qualified
    | kernel unqualified => exact absurd unqualified qualified
  · intro found
    exact .own namesItself.isLocal (Option.isSome_iff_ne_none.mpr found)

/-- The node dispatches on calls that name the module itself, and on no others. -/
def Node.DispatchesOnOwn (scope : ModuleScope) (n : Node) : Prop :=
  ∀ call arity, n.DispatchesOn call arity → scope.NamesItself call

/-- The node dispatches on a call for which the index has no function. -/
def Node.DispatchesOnMissing (scope : ModuleScope) (n : Node) : Prop :=
  ∃ call arity, n.DispatchesOn call arity ∧ scope.resolve? ⟨call.name, arity⟩ = none

theorem Node.DispatchesOnOwn.exists_unknown_iff (onOwn : n.DispatchesOnOwn scope) :
    (∃ call arity, n.DispatchesOn call arity ∧ ¬KnowsFailures trusted scope call arity) ↔
      n.DispatchesOnMissing scope := by
  refine exists_congr fun call => exists_congr fun arity => and_congr_right fun dispatched => ?_
  rw [(onOwn call arity dispatched).knowsFailures_iff, not_not]

/-! ## The rules -/

theorem Rule.check_ne_nil_iff {rule : Rule} :
    rule.check settings context site ≠ [] ↔ rule.findings settings context site ≠ [] := by
  rw [Rule.check, Ne, List.map_eq_nil_iff]

/-- How the rules about other modules treat calls that name the module itself. -/
structure TreatsOwnCalls (settings : RuleSettings) (context : ModuleContext) (site : Site) :
    Prop where
  /-- A target that names the module itself is foreign when its function is missing. -/
  foreign : ∀ target ∈
      (ErrorMapping.branchesAndTargets settings.trusted context.scope site.node).2,
    ∀ call, target.call = some call → context.scope.NamesItself call →
      (target.isForeign = true ↔ context.scope.resolve? ⟨call.name, target.arity⟩ = none)
  /-- Errors are passed on from a function that is missing, and from no other one. -/
  mapped : site.node.kind = .withExpr ∨ site.node.kind = .caseExpr →
    site.node.DispatchesOnOwn context.scope →
      (Rule.errorMapping.check settings context site ≠ [] ↔
        site.node.DispatchesOnMissing context.scope ∧
          ∃ branch ∈
            (ErrorMapping.branchesAndTargets settings.trusted context.scope site.node).1,
          ∃ tag, EchoesTag Node.IsTagged branch tag)
  /-- An `else` is asked for a function that is missing, and for no other one. -/
  covered : site.node.kind = .withExpr → site.node.DispatchesOnOwn context.scope →
    (Rule.withElseCoverage.check settings context site ≠ [] ↔
      site.node.childOfKind? .elseBlock = none ∧ site.node.DispatchesOnMissing context.scope)

theorem exists_ofExpression_of_mem {target : Target}
    (member : target ∈ (ErrorMapping.branchesAndTargets trusted scope n).2) :
    ∃ pattern expression, target = .ofExpression trusted scope pattern expression := by
  rw [ErrorMapping.branchesAndTargets] at member
  by_cases isWith : n.kind = .withExpr
  · rw [if_pos isWith] at member
    obtain ⟨clause, -, isTarget⟩ := List.mem_filterMap.mp member
    obtain ⟨⟨pattern, expression⟩, -, rfl⟩ := Option.map_eq_some_iff.mp isTarget
    exact ⟨pattern, expression, rfl⟩
  · rw [if_neg isWith] at member
    obtain ⟨subject, -, rfl⟩ := Option.map_eq_some_iff.mp (Option.mem_toList.mp member)
    exact ⟨subject, subject, rfl⟩

/-- The calls of a target and of the expression that it stands for. -/
theorem callTarget?_of_call {pattern expression : Node}
    (isCall : (Target.ofExpression trusted scope pattern expression).call = some call) :
    expression.callTarget? =
      some (call, (Target.ofExpression trusted scope pattern expression).arity) := by
  rw [Target.ofExpression] at isCall ⊢
  cases makes : expression.callTarget? with
  | none =>
      rw [makes] at isCall
      cases isCall
  | some called =>
      rw [makes] at isCall
      cases isCall
      rfl

/-- A call to the own module counts as foreign exactly when no function of the module
takes it. -/
theorem Target.isForeign_iff_missing {pattern expression : Node}
    (isCall : (Target.ofExpression trusted scope pattern expression).call = some call)
    (namesItself : scope.NamesItself call) :
    (Target.ofExpression trusted scope pattern expression).isForeign = true ↔
      scope.resolve? ⟨call.name,
        (Target.ofExpression trusted scope pattern expression).arity⟩ = none := by
  have makes := callTarget?_of_call isCall
  rw [ofExpression_isForeign_iff, makes]
  simp only [Option.some.injEq, Prod.mk.injEq]
  constructor
  · rintro ⟨_, _, ⟨rfl, rfl⟩, unknown⟩
    rwa [namesItself.knowsFailures_iff, not_not] at unknown
  · intro missing
    refine ⟨_, _, ⟨rfl, rfl⟩, ?_⟩
    rwa [namesItself.knowsFailures_iff, not_not]

/-- A call that names its own module counts as one into another module exactly when
the index has no function for it, both where errors are passed on and where failures
are to be covered. -/
theorem treatsOwnCalls (settings : RuleSettings) (context : ModuleContext) (site : Site) :
    TreatsOwnCalls settings context site := by
  refine ⟨?_, ?_, ?_⟩
  · intro target member call isCall namesItself
    obtain ⟨pattern, expression, rfl⟩ := exists_ofExpression_of_mem member
    exact Target.isForeign_iff_missing isCall namesItself
  · intro dispatches onOwn
    have reports : ErrorMapping.ReportsEchoes Node.IsTagged
        (ErrorMapping.branchesAndTargets settings.trusted context.scope site.node).1
        (ErrorMapping.branchesAndTargets settings.trusted context.scope site.node).2
        (Rule.errorMapping.check settings context site) :=
      ErrorMapping.reportsEchoes_of_parts settings context site rfl
    rw [reports.ne_nil_iff, exists_isForeign_iff dispatches, onOwn.exists_unknown_iff]
  · intro isWith onOwn
    rw [Rule.check_ne_nil_iff, Rule.findings, WithElse.coverage_ne_nil_iff,
      exists_unknown_clause_iff isWith, onOwn.exists_unknown_iff]

/-! ## A function that the index lacks -/

open ErrorMapping (caseForm echoForm tupleForm plainSettings contextOf)
open WithElse (atomForm)

def ownCall (name : String) : Node :=
  callForm 3 (.text "A") name []

/-- A `case` on a function of the module that passes a tagged error on. -/
def ownCase (name : String) : Node :=
  caseForm 3 (ownCall name) [echoForm 4 (tupleForm 4 [atomForm 4 "error", neededParam 4])]

/-- A `with` on a function of the module that has no `else`. -/
def ownWith (name : String) : Node :=
  ⟨.withExpr, lineSpan 6, [], [⟨.withClause, lineSpan 6, [], [atomForm 6 "ok", ownCall name]⟩,
    ⟨.block, lineSpan 7, [], [atomForm 7 "ok"]⟩]⟩

def ownForms : List Node :=
  [functionForm 2 "f" "public" [] [ownCase "g", ownCase "h", ownWith "g", ownWith "h"],
    functionForm 9 "g" "private" [] [atomForm 10 "error"]]

theorem treatsOwnCalls_missing :
    ∃ scope, ModuleScope.ofModule (fun _ => false) (moduleOf ownForms) = .ok scope ∧
      (ownCase "h").DispatchesOnOwn scope ∧
      (Rule.errorMapping.check plainSettings (contextOf scope)
        ⟨[0, 1, 1], ownCase "h"⟩).length = 1 ∧
      TreatsOwnCalls plainSettings (contextOf scope) ⟨[0, 1, 1], ownCase "h"⟩ := by
  have indexed : ModuleScope.ofModule (fun _ => false) (moduleOf ownForms) = .ok _ := rfl
  refine ⟨_, indexed, ?_, by decide, treatsOwnCalls _ _ _⟩
  intro call arity dispatched
  cases dispatched with
  | clause isWith => cases isWith
  | subject isCase first makes =>
      cases first
      cases makes
      exact .inl rfl

/-- The module has the function `g` and no function `h`. -/
theorem missing_own_call_isForeign :
    ∃ scope, ModuleScope.ofModule (fun _ => false) (moduleOf ownForms) = .ok scope ∧
      scope.NamesItself (ownCall "g") ∧ scope.NamesItself (ownCall "h") ∧
      (caseTarget? [] scope (ownCase "g")).map (·.isForeign) = some false ∧
      (caseTarget? [] scope (ownCase "h")).map (·.isForeign) = some true ∧
      Rule.errorMapping.check plainSettings (contextOf scope) ⟨[0, 1, 0], ownCase "g"⟩ = [] ∧
      (Rule.errorMapping.check plainSettings (contextOf scope)
        ⟨[0, 1, 1], ownCase "h"⟩).map (·.message) =
        ["`:error` from A.h/0 is passed through unchanged; " ++
          "consider mapping it to this module's own error vocabulary."] ∧
      Rule.withElseCoverage.check plainSettings (contextOf scope) ⟨[0, 1, 2], ownWith "g"⟩ = [] ∧
      (Rule.withElseCoverage.check plainSettings (contextOf scope)
        ⟨[0, 1, 3], ownWith "h"⟩).length = 1 := by
  have indexed : ModuleScope.ofModule (fun _ => false) (moduleOf ownForms) = .ok _ := rfl
  exact ⟨_, indexed, .inl rfl, .inl rfl, rfl, rfl, rfl, by decide, rfl, by decide⟩

end StyleAudit
