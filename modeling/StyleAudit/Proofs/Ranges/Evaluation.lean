import StyleAudit.Proofs.Audit.Walk
import StyleAudit.Proofs.Ranges.Findings

/-!
# Evaluation with other source ranges

Source ranges say where something was found and nothing else: when all ranges of
a tree change, also when nodes come to share a range, the evaluation gives the
same records at the changed ranges (`evaluate_mapSpans`).
-/

namespace StyleAudit

open Outcome (mapBoth mapBoth_bind)

variable (change : Span → Span)

theorem Rule.check_mapSpans (rule : Rule) (settings : RuleSettings) (context : ModuleContext)
    (site : Site) :
    rule.check settings (context.mapSpans change) (site.mapSpans change) =
      (rule.check settings context site).map (Violation.mapSpan change) := by
  rw [check, check, findings_mapSpans, List.map_map, List.map_map]
  rfl

theorem ModuleFault.record_mapSpan (fault : ModuleFault) (moduleName : String) :
    (fault.mapSpan change).record moduleName =
      (fault.record moduleName).mapSpan change := by
  cases fault <;> rfl

namespace Catalog

variable (catalog : Catalog) (isNested : String → Bool)

theorem check_mapSpans (context : ModuleContext) (site : Site) :
    catalog.check (context.mapSpans change) (site.mapSpans change) =
      (catalog.check context site).map (Violation.mapSpan change) := by
  have sameKind : (site.mapSpans change).node.kind = site.node.kind :=
    Node.kind_mapSpans change site.node
  rw [check, check, sameKind, List.map_flatMap]
  exact List.flatMap_congr fun rule _ =>
    Rule.check_mapSpans change rule catalog.settings context site

theorem ownRecords_mapSpans (site : Site) (context : Option ModuleContext) :
    catalog.ownRecords (site.mapSpans change) (context.map (ModuleContext.mapSpans change)) =
      (catalog.ownRecords site context).map (Violation.mapSpan change) := by
  cases context with
  | none => rfl
  | some context => exact catalog.check_mapSpans change context site

theorem evaluateAll_map {context : Option ModuleContext} {path : NodePath} {ns : List Node}
    (each : ∀ n ∈ ns, ∀ path,
      catalog.evaluateNode isNested (context.map (ModuleContext.mapSpans change)) path
          (n.mapSpans change) =
        mapBoth id (List.map (Violation.mapSpan change))
          (catalog.evaluateNode isNested context path n)) (position : Nat) :
    catalog.evaluateAll isNested (context.map (ModuleContext.mapSpans change)) path position
        (ns.map (Node.mapSpans change)) =
      mapBoth id (List.map (Violation.mapSpan change))
        (catalog.evaluateAll isNested context path position ns) := by
  induction ns generalizing position with
  | nil => rfl
  | cons n rest inductionHypothesis =>
      rw [List.map_cons, evaluateAll, evaluateAll, each n List.mem_cons_self,
        inductionHypothesis fun other member => each other (List.mem_cons_of_mem n member)]
      refine mapBoth_bind (fun first => ?_) _
      refine mapBoth_bind (fun others => ?_) _
      exact congrArg Except.ok List.map_append.symm

/-- By induction on the tree: moving all source ranges moves those of the records and
changes nothing else. -/
theorem evaluateNode_mapSpans (context : Option ModuleContext) (path : NodePath) (n : Node) :
    catalog.evaluateNode isNested (context.map (ModuleContext.mapSpans change)) path
        (n.mapSpans change) =
      mapBoth id (List.map (Violation.mapSpan change))
        (catalog.evaluateNode isNested context path n) := by
  induction n using Node.childInduction generalizing context path with
  | step n inductionHypothesis =>
      have below : ∀ (context : Option ModuleContext) (path : NodePath),
          catalog.evaluateAll isNested (context.map (ModuleContext.mapSpans change)) path 0
              (n.mapSpans change).children =
            mapBoth id (List.map (Violation.mapSpan change))
              (catalog.evaluateAll isNested context path 0 n.children) := by
        intro context path
        rw [Node.children_mapSpans]
        exact catalog.evaluateAll_map change isNested
          (fun child member => inductionHypothesis child member context) 0
      by_cases isModule : n.kind = .module
      · rw [evaluateNode_of_module isModule, evaluateNode_of_module (by simpa using isModule),
          ofModule_mapSpans]
        cases ModuleScope.ofModule isNested n with
        | error stopped =>
            cases stopped with
            | arity fault => rfl
            | confined fault =>
                simp only [mapBoth, IndexFault.mapSpan, ModuleFault.record_mapSpan,
                  Node.name_mapSpans, List.map_cons, List.map_nil]
        | ok scope =>
            have found := catalog.check_mapSpans change ⟨scope, CallGraph.ofScope scope⟩ ⟨[], n⟩
            have belowScope := below (some ⟨scope, CallGraph.ofScope scope⟩) []
            rw [ModuleContext.mapSpans, ← ofScope_mapSpans] at found
            rw [Option.map_some, ModuleContext.mapSpans, ← ofScope_mapSpans] at belowScope
            simp only [mapBoth, belowScope]
            refine mapBoth_bind (fun records => ?_) _
            show Except.ok _ = Except.ok _
            rw [List.map_append, ← found]
            rfl
      · rw [evaluateNode_of_not_module isModule, evaluateNode_of_not_module (by simpa using isModule),
          below]
        refine mapBoth_bind (fun records => ?_) _
        show Except.ok _ = Except.ok _
        rw [List.map_append, ← ownRecords_mapSpans]
        rfl

/-- Evaluating a tree whose source ranges change gives the records of the tree,
in the same order, at the changed ranges; the change may give one range to
several nodes. An arity that stops the evaluation stops it in the same way. -/
theorem evaluate_mapSpans (tree : Node) :
    catalog.evaluate isNested (tree.mapSpans change) =
      (catalog.evaluate isNested tree).map (List.map (Violation.mapSpan change)) := by
  have moved := catalog.evaluateNode_mapSpans change isNested none [] tree
  rw [Option.map_none] at moved
  rw [evaluate_eq_evaluateNode, evaluate_eq_evaluateNode, moved]
  cases catalog.evaluateNode isNested none [] tree <;> rfl

end Catalog
end StyleAudit
