import StyleAudit.Proofs.Module.CallGraph
import StyleAudit.Proofs.Rule.Block
import StyleAudit.Proofs.Rule.Function
import StyleAudit.Proofs.Rule.WithElse
import StyleAudit.Rule.Check

/-!
# Every look-up of a rule finds something

`Rule.readFindings` asks a rule about a site and makes every look-up of a child
by position in the open. In a module of an accepted tree whose scope was built,
no rule meets a gap at a node of a kind that it looks at, and the findings are
those of `Rule.findings` (`readFindings_eq`).
-/

namespace StyleAudit.Rule

/-- What a rule finds at a site of a module. The rules about the forms of a
module look up no children by position. -/
def readFindings (settings : RuleSettings) (context : ModuleContext) (site : Site) :
    Rule → Reading (List Finding)
  | withElseCoverage => WithElse.readCoverage settings.trusted context.scope site.node
  | withElseRedundancy => WithElse.readRedundancy settings.trusted context.scope site.node
  | withElseOrder => WithElse.readOrder settings.trusted context.scope site.node
  | errorMapping => ErrorMapping.readFindings settings.trusted context.scope site.node
  | moduledocScope => .ok (ModuleForm.moduledocScope context.scope site.node)
  | importScope => .ok (ModuleForm.importScope context.scope site)
  | testCaseUsage =>
    .ok (ModuleForm.testCaseUsage settings.testSupport context.scope site.node)
  | sequentialNaming => Naming.readSequential site.node
  | predicateNaming => Naming.readPredicate settings context.scope site
  | functionOrder => .ok (FunctionOrder.check context.scope context.graph)
  | flowDirectiveChoice => Flow.readDirectiveChoice site.node
  | patternMatchingUsage => Extraction.readScan none site.node.children
  | nestedStructureMacroUsage => NestedUpdate.readFindings site.node
  | optionFormat => OptionFormat.readFindings settings.optionNames site.node
  | errorHandlingLocality => ErrorLocality.readFindings context site
  | okErrorReturnConsistency => Tagging.readFindings context.scope site

/-- The records of a rule at a site. -/
def readCheck (settings : RuleSettings) (context : ModuleContext) (site : Site) (rule : Rule) :
    Reading (List Violation) := do
  let found ← rule.readFindings settings context site
  return found.map rule.report

variable {m : Node} {context : ModuleContext} {site : Site} {rule : Rule}

/-- No rule meets a gap at a node of a kind that it looks at. -/
theorem readFindings_eq (shaped : m.IsWellShaped) (refers : context.scope.RefersTo m)
    (settings : RuleSettings) (member : site.node ∈ m.preorder)
    (dispatched : site.node.kind ∈ rule.kinds) :
    rule.readFindings settings context site = .ok (rule.findings settings context site) := by
  have nodeShaped := shaped.of_mem member
  cases rule with
  | withElseCoverage => exact WithElse.readCoverage_eq nodeShaped
  | withElseRedundancy => exact WithElse.readRedundancy_eq nodeShaped
  | withElseOrder => exact WithElse.readOrder_eq shaped refers member
  | errorMapping =>
      have isHandled : site.node.kind = .caseExpr ∨ site.node.kind = .withExpr := by
        simpa [kinds] using dispatched
      exact ErrorMapping.readFindings_eq nodeShaped isHandled
  | sequentialNaming =>
      have isHandled : site.node.kind = .function ∨ site.node.kind = .matchExpr := by
        simpa [kinds] using dispatched
      refine Naming.readSequential_eq nodeShaped ?_
      rcases isHandled with isFunction | isMatch
      · rw [isFunction]
        decide
      · rw [isMatch]
        decide
  | predicateNaming => exact Naming.readPredicate_eq shaped refers settings site
  | flowDirectiveChoice =>
      have isHandled : site.node.kind = .caseExpr ∨ site.node.kind = .ifExpr := by
        simpa [kinds] using dispatched
      exact Flow.readDirectiveChoice_eq nodeShaped isHandled
  | patternMatchingUsage =>
      exact Extraction.readScan_eq fun expression listed => nodeShaped.of_child listed
  | nestedStructureMacroUsage => exact NestedUpdate.readFindings_eq nodeShaped
  | optionFormat =>
      exact OptionFormat.readFindings_eq _ nodeShaped (List.mem_singleton.mp dispatched)
  | errorHandlingLocality =>
      exact ErrorLocality.readFindings_eq shaped refers member (List.mem_singleton.mp dispatched)
  | okErrorReturnConsistency => exact Tagging.readFindings_eq shaped refers site
  | moduledocScope => rfl
  | importScope => rfl
  | testCaseUsage => rfl
  | functionOrder => rfl

/-- In a module of an accepted tree whose scope was built, every rule answers
with its records at every node of a kind that it looks at: no child that it
looks up is missing. The calls of all nodes can be collected, both ends of every
edge of the call graph have a position, and so the first callers are found. -/
theorem readCheck_of_normalize {raw : Value} {file : Option String} {tree m : Node}
    {isNested : String → Bool} {scope : ModuleScope}
    (accepted : Node.normalize raw file = .ok tree) (member : m ∈ tree.preorder)
    (indexed : ModuleScope.ofModule isNested m = .ok scope) :
    (∀ settings rule site, site.node ∈ m.preorder → site.node.kind ∈ Rule.kinds rule →
      rule.readCheck settings ⟨scope, CallGraph.ofScope scope⟩ site =
        .ok (rule.check settings ⟨scope, CallGraph.ofScope scope⟩ site)) ∧
    (∀ n ∈ m.preorder, n.readCalls = .ok n.calls) ∧
    (∀ caller callee, (caller, callee) ∈ (CallGraph.ofScope scope).edges →
      ((CallGraph.ofScope scope).position? caller).isSome ∧
        ((CallGraph.ofScope scope).position? callee).isSome) ∧
    ∀ key, (CallGraph.ofScope scope).readFirstCaller key =
      .ok ((CallGraph.ofScope scope).firstCaller? key) := by
  have shaped := (Node.isWellShaped_of_normalize accepted).of_mem member
  have refers := refersTo_of_ofModule indexed
  refine ⟨?_, ?_, ?_, readFirstCaller_ofScope refers⟩
  · intro settings rule site siteMember dispatched
    rw [readCheck, readFindings_eq shaped refers settings siteMember dispatched]
    rfl
  · intro n nodeMember
    exact (shaped.of_mem nodeMember).readCalls_eq
  · intro caller callee edge
    exact position?_isSome_of_mem_edges refers edge

/-- A dumped module with a `case` whose only branch passes an error on. -/
def echoingModule : Value :=
  .table [("kind", .text "module"), ("attributes", .table [("name", .text "A")]),
    ("children", .list [.table [("kind", .text "case"), ("line", .int 4), ("children", .list [
      .table [("kind", .text "call"),
        ("attributes", .table [("name", .text "load"), ("module", .text "B")])],
      .table [("kind", .text "branch"), ("line", .int 5), ("children", .list [
        .table [("kind", .text "atom"), ("attributes", .table [("value", .text "error")])],
        .table [("kind", .text "atom"), ("attributes", .table [("value", .text "error")])]])]])]])]

theorem readCheck_of_normalize_echo :
    ∃ tree subject scope,
      Node.normalize echoingModule (some "lib/a.ex") = .ok tree ∧ tree.children = [subject] ∧
      ModuleScope.ofModule (fun _ => false) tree = .ok scope ∧
      errorMapping.readCheck ⟨[], [], "", "", []⟩ ⟨scope, CallGraph.ofScope scope⟩ ⟨[0], subject⟩ =
        .ok [⟨"error-mapping", ⟨"lib/a.ex", ⟨5, 1, 5, 1⟩⟩, "`:error` from B.load/0 is passed " ++
          "through unchanged; consider mapping it to this module's own error vocabulary.",
          .advisory⟩] := by
  have accepted : Node.normalize echoingModule (some "lib/a.ex") = .ok _ := rfl
  have answers := @readCheck_of_normalize _ _ _ _ (fun _ => false) _ accepted
    (Node.mem_preorder_self _) rfl
  refine ⟨_, _, _, accepted, rfl, rfl, ?_⟩
  refine (answers.1 _ errorMapping _ ?_ List.mem_cons_self).trans rfl
  exact Node.mem_preorder_of_mem_children List.mem_cons_self

end StyleAudit.Rule
