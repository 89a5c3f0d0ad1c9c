import StyleAudit.Proofs.Ranges.Target
import StyleAudit.Rule.Check

/-!
# Findings with other source ranges

Every rule finds the same at a node whose source ranges change, in the same order
and at the changed ranges (`Rule.findings_mapSpans`).
-/

namespace StyleAudit

variable (change : Span → Span)

def Site.mapSpans (site : Site) : Site :=
  { site with node := site.node.mapSpans change }

def ModuleContext.mapSpans (context : ModuleContext) : ModuleContext :=
  ⟨context.scope.mapSpans change, context.graph.mapSpans change⟩

/-! ## Forms of a module -/

namespace ModuleForm

variable (scope : ModuleScope)

theorem moduledocScope_mapSpans (n : Node) :
    moduledocScope (scope.mapSpans change) (n.mapSpans change) =
      (moduledocScope scope n).map (Finding.mapSpan change) := by
  simp only [moduledocScope, ModuleScope.mapSpans, Node.span_mapSpans]
  split <;> rfl

theorem importScope_mapSpans (site : Site) :
    importScope (scope.mapSpans change) (site.mapSpans change) =
      (importScope scope site).map (Finding.mapSpan change) := by
  simp only [importScope, Site.mapSpans, ModuleScope.importAt?_mapSpans, Node.span_mapSpans]
  cases scope.importAt? site.path with
  | none => rfl
  | some decl =>
      have sameTarget : (decl.mapSpan change).target = decl.target := rfl
      have samePlace : (decl.mapSpan change).inFunction = decl.inFunction := rfl
      have sameRestriction : (decl.mapSpan change).isRestricted = decl.isRestricted := rfl
      simp only [Option.map_some, sameTarget, samePlace, sameRestriction]
      split
      · rfl
      · split <;> rfl

theorem isExercised_mapSpans (capability : Capability) :
    isExercised (scope.mapSpans change) capability = isExercised scope capability := by
  simp only [isExercised, ModuleScope.mapSpans, List.any_map]
  rfl

theorem testCaseUsage_mapSpans (support : List (String × Capability)) (n : Node) :
    testCaseUsage support (scope.mapSpans change) (n.mapSpans change) =
      (testCaseUsage support scope n).map (Finding.mapSpan change) := by
  simp only [testCaseUsage, Node.attr_mapSpans, Node.span_mapSpans, isExercised_mapSpans]
  cases capability? support (n.attr "module").plainText with
  | none => rfl
  | some capability =>
      simp only
      split <;> rfl

end ModuleForm

/-! ## Names -/

namespace Naming

def Member.mapSpan (member : Member) : Member :=
  { member with span := change member.span }

theorem ofVariable_mapSpans (v : Node) :
    Member.ofVariable (v.mapSpans change) = (Member.ofVariable v).mapSpan change := by
  simp only [Member.ofVariable, Node.name_mapSpans, Node.span_mapSpans]
  cases stem? v.name <;> rfl

theorem identifiers_mapSpans (declared : Node) :
    identifiers (declared.mapSpans change) =
      (identifiers declared).map (Node.mapSpans change) := by
  have sameVariables : (declared.mapSpans change).patternVariables.filter
        (fun v => !Text.begins v.name "_") =
      (declared.patternVariables.filter fun v => !Text.begins v.name "_").map
        (Node.mapSpans change) := by
    simp [Node.patternVariables_mapSpans, List.filter_map, Function.comp_def]
  rw [identifiers, identifiers, sameVariables, List.foldl_map]
  show List.foldl _ (List.map (Node.mapSpans change) []) _ = _
  refine List.foldl_hom (List.map (Node.mapSpans change)) fun found v => ?_
  simp only [List.any_map, Function.comp_def, Node.name_mapSpans]
  split <;> simp

theorem seriesOf_mapSpan (members : List Member) :
    seriesOf (members.map (Member.mapSpan change)) =
      (seriesOf members).map (List.map (Member.mapSpan change)) := by
  have sameStems : (members.map (Member.mapSpan change)).map (·.stem) = members.map (·.stem) := by
    rw [List.map_map]
    rfl
  rw [seriesOf, seriesOf, sameStems, List.map_map]
  refine List.map_congr_left fun stem _ => ?_
  rw [Function.comp_apply, List.filter_map]
  rfl

theorem numbered_mapSpans (declared : Node) :
    numbered (declared.mapSpans change) =
      (numbered declared).map (Finding.mapSpan change) := by
  have sameMembers : (identifiers (declared.mapSpans change)).map Member.ofVariable =
      ((identifiers declared).map Member.ofVariable).map (Member.mapSpan change) := by
    rw [identifiers_mapSpans, List.map_map, List.map_map]
    exact List.map_congr_left fun v _ => ofVariable_mapSpans change v
  rw [numbered, numbered, sameMembers]
  simp only [seriesOf_mapSpan, List.filter_map, List.flatMap_map, List.map_flatMap,
    Function.comp_def, List.length_map]
  simp only [List.map_map]
  rfl

theorem sequential_mapSpans (n : Node) :
    sequential (n.mapSpans change) = (sequential n).map (Finding.mapSpan change) := by
  rw [sequential, sequential, Node.children_mapSpans]
  cases n.children with
  | nil => rfl
  | cons declared rest => exact numbered_mapSpans change declared

theorem returnsBoolean_mapSpans (group : FunctionGroup) :
    returnsBoolean (group.mapSpans change) = returnsBoolean group := by
  simp only [returnsBoolean, FunctionGroup.bodies_mapSpans, List.flatMap_map,
    Node.terminals_mapSpans, ← List.map_flatMap, List.isEmpty_map, List.all_map,
    Function.comp_def, Node.isBooleanValued_mapSpans]

theorem misnamed_mapSpans (group : FunctionGroup) (n : Node) (problems : List String) :
    misnamed (group.mapSpans change) (n.mapSpans change) problems =
      (misnamed group n problems).map (Finding.mapSpan change) := by
  cases problems with
  | nil => rfl
  | cons first rest => simp [misnamed, Finding.mapSpan]

theorem predicate_mapSpans (settings : RuleSettings) (scope : ModuleScope) (site : Site) :
    predicate settings (scope.mapSpans change) (site.mapSpans change) =
      (predicate settings scope site).map (Finding.mapSpan change) := by
  simp only [predicate, Site.mapSpans, ModuleScope.functionForClause?_mapSpans]
  cases scope.functionForClause? site.path with
  | none => rfl
  | some group =>
      have sameFirst : (group.mapSpans change).first.position = group.first.position := rfl
      simp only [Option.map_some, sameFirst, FunctionGroup.key_mapSpans, returnsBoolean_mapSpans,
        misnamed_mapSpans]
      split <;> rfl

end Naming

/-! ## The order of functions -/

namespace FunctionOrder

theorem problem?_mapSpans (functions : List FunctionGroup) (graph : CallGraph)
    (group : FunctionGroup) (caller : FunctionKey) (callerAt : Nat) :
    problem? (functions.map (FunctionGroup.mapSpans change)) (graph.mapSpans change)
        (group.mapSpans change) caller callerAt =
      problem? functions graph group caller callerAt := by
  have samePosition : (group.mapSpans change).position = group.position := rfl
  simp only [problem?, samePosition, FunctionGroup.key_mapSpans, ← List.map_take, ← List.map_drop,
    List.all_map]
  rfl

theorem check_mapSpans (scope : ModuleScope) (graph : CallGraph) :
    check (scope.mapSpans change) (graph.mapSpans change) =
      (check scope graph).map (Finding.mapSpan change) := by
  have sameFunctions : (scope.mapSpans change).functions =
    scope.functions.map (FunctionGroup.mapSpans change) := rfl
  rw [check, check, sameFunctions, List.filterMap_map, List.map_filterMap]
  refine List.filterMap_congr fun group _ => ?_
  have samePrivate : (group.mapSpans change).isPrivate = group.isPrivate := rfl
  have sameCaller : (graph.mapSpans change).firstCaller? = graph.firstCaller? := rfl
  have samePosition : (graph.mapSpans change).position? = graph.position? := rfl
  have sameSpan : (group.mapSpans change).first.node.span = change group.first.node.span :=
    Node.span_mapSpans change group.first.node
  simp only [Function.comp_apply, findingOf?, samePrivate, sameCaller, samePosition,
    FunctionGroup.key_mapSpans, sameFunctions, problem?_mapSpans, sameSpan]
  split
  · rfl
  · cases graph.firstCaller? group.key with
    | none => rfl
    | some caller =>
        simp only
        cases graph.position? caller with
        | none => rfl
        | some callerAt =>
            simp only [Option.map_map]
            rfl

end FunctionOrder

/-! ## Flow of control -/

namespace Flow

theorem isDispatch_mapSpans (body : Node) : isDispatch (body.mapSpans change) = isDispatch body := by
  simp [isDispatch, Option.any_map]

theorem isFlattenableCase_map (branches : List Node) :
    isFlattenableCase (branches.map (Node.mapSpans change)) = isFlattenableCase branches := by
  have sameWorking :
      (branches.map (Node.mapSpans change)).filter (fun branch => !branch.isEcho) =
        (branches.filter fun branch => !branch.isEcho).map (Node.mapSpans change) := by
    simp [List.filter_map, Function.comp_def]
  rw [isFlattenableCase, isFlattenableCase, sameWorking, List.length_map]
  generalize branches.filter (fun branch => !branch.isEcho) = forwarding
  match forwarding with
  | [] => rfl
  | _ :: _ :: _ => rfl
  | [working] => simp [Option.any_map, isDispatch_mapSpans]

theorem isFlattenable_mapSpans (n : Node) :
    isFlattenable (n.mapSpans change) = isFlattenable n := by
  simp only [isFlattenable, Node.kind_mapSpans, Node.children_mapSpans]
  cases n.kind with
  | ifExpr =>
      match n.children with
      | [] => rfl
      | [_] => rfl
      | [_, consequent] => exact isDispatch_mapSpans change consequent
      | _ :: _ :: _ :: _ => rfl
  | caseExpr =>
      cases n.children with
      | nil => rfl
      | cons subject branches => exact isFlattenableCase_map change branches
  | _ => rfl

theorem directiveChoice_mapSpans (n : Node) :
    directiveChoice (n.mapSpans change) = (directiveChoice n).map (Finding.mapSpan change) := by
  rw [directiveChoice, directiveChoice, isFlattenable_mapSpans]
  split
  · simp [forwarding, Finding.mapSpan]
  · rfl

end Flow

/-! ## Extractions -/

namespace Extraction

def Run.mapSpans (run : Run) : Run :=
  { run with first := run.first.mapSpans change }

theorem extraction?_mapSpans (expression : Node) :
    extraction? (expression.mapSpans change) = extraction? expression := by
  simp only [extraction?, Node.kind_mapSpans, Node.children_mapSpans]
  cases expression.kind with
  | matchExpr =>
      match expression.children with
      | [] => rfl
      | [_] => rfl
      | pattern :: value :: rest => simp
  | _ => rfl

theorem finding_mapSpans (run : Run) :
    (run.mapSpans change).finding = run.finding.map (Finding.mapSpan change) := by
  simp only [Run.finding, Run.mapSpans, Node.span_mapSpans]
  split <;> rfl

theorem closeRun_map (current : Option Run) :
    closeRun (current.map (Run.mapSpans change)) =
      (closeRun current).map (Finding.mapSpan change) := by
  cases current with
  | none => rfl
  | some run => exact finding_mapSpans change run

theorem scan_map (current : Option Run) (expressions : List Node) :
    scan (current.map (Run.mapSpans change)) (expressions.map (Node.mapSpans change)) =
      (scan current expressions).map (Finding.mapSpan change) := by
  induction expressions generalizing current with
  | nil => exact closeRun_map change current
  | cons expression rest inductionHypothesis =>
      have closed : scan none (rest.map (Node.mapSpans change)) =
          (scan none rest).map (Finding.mapSpan change) := inductionHypothesis none
      have going : ∀ run : Run, scan (some (run.mapSpans change))
          (rest.map (Node.mapSpans change)) = (scan (some run) rest).map (Finding.mapSpan change) :=
        fun run => inductionHypothesis (some run)
      rw [List.map_cons]
      unfold scan
      rw [extraction?_mapSpans]
      cases extraction? expression with
      | none => simp only [closeRun_map, closed, List.map_append]
      | some found =>
          obtain ⟨name, base⟩ := found
          cases current with
          | none => exact going ⟨expression, 1, [name, base]⟩
          | some run =>
              have sameRoots : (run.mapSpans change).roots = run.roots := rfl
              simp only [Option.map_some, sameRoots, finding_mapSpans]
              split
              · exact going ⟨run.first, run.length + 1, name :: run.roots⟩
              · rw [List.map_append, ← going ⟨expression, 1, [name, base]⟩]
                rfl

theorem check_mapSpans (n : Node) :
    check (n.mapSpans change) = (check n).map (Finding.mapSpan change) := by
  rw [check, check, Node.children_mapSpans]
  exact scan_map change none n.children

end Extraction

/-! ## Nested updates -/

namespace NestedUpdate

/-- Both sides of a pair with their ranges changed. -/
abbrev mapPair : Node × Node → Node × Node :=
  Prod.map (Node.mapSpans change) (Node.mapSpans change)

theorem readSource?_mapSpans (source : Node) :
    readSource? (source.mapSpans change) = (readSource? source).map (mapPair change) := by
  simp only [readSource?, Node.kind_mapSpans, Node.children_mapSpans, Node.qualifiedName_mapSpans]
  match source.children with
  | [] => rfl
  | [_] => rfl
  | base :: key :: rest =>
      simp only [List.map_cons]
      split <;> rfl

theorem readPath?_mapSpans (value : Node) :
    readPath? (value.mapSpans change) = (readPath? value).map (mapPair change) := by
  simp only [readPath?, Node.kind_mapSpans, Node.children_mapSpans, Node.attr_mapSpans,
    Node.name_mapSpans]
  cases value.children with
  | nil => rfl
  | cons source rest =>
      simp only [List.map_cons, readSource?_mapSpans]
      split <;> rfl

theorem writtenTo?_mapSpans (n base key : Node) :
    writtenTo? (n.mapSpans change) (base.mapSpans change) (key.mapSpans change) =
      (writtenTo? n base key).map (Node.mapSpans change) := by
  simp only [writtenTo?, Node.kind_mapSpans, Node.children_mapSpans, Node.attr_mapSpans,
    Node.name_mapSpans]
  match n.children with
  | [] => rfl
  | [_] => rfl
  | [_, _] => rfl
  | [base', key', written] =>
      simp only [List.map_cons, List.map_nil, Node.structurallyEqual_mapSpans]
      split <;> rfl
  | _ :: _ :: _ :: _ :: _ => rfl

theorem valueOf_mapSpans (expression : Node) :
    valueOf (expression.mapSpans change) = (valueOf expression).mapSpans change := by
  simp only [valueOf, Node.kind_mapSpans, Node.children_mapSpans]
  cases expression.kind with
  | matchExpr =>
      match expression.children with
      | [] => rfl
      | [_] => rfl
      | _ :: _ :: _ => rfl
  | _ => rfl

theorem isInline_mapSpans (value : Node) : isInline (value.mapSpans change) = isInline value := by
  simp only [isInline, Node.kind_mapSpans, Node.children_mapSpans]
  cases value.kind with
  | call =>
      match value.children with
      | [] => rfl
      | [_] => rfl
      | [_, _] => rfl
      | [_, _, inner] =>
          simp only [List.map_cons, List.map_nil, readPath?_mapSpans]
          cases readPath? inner with
          | none => rfl
          | some path => simp [writtenTo?_mapSpans]
      | _ :: _ :: _ :: _ :: _ => rfl
  | _ => rfl

theorem writesBack_mapSpans (base key : Node) (temporary : String) (expression : Node) :
    writesBack (base.mapSpans change) (key.mapSpans change) temporary
        (expression.mapSpans change) =
      writesBack base key temporary expression := by
  simp only [writesBack, valueOf_mapSpans, writtenTo?_mapSpans, Option.any_map,
    Node.kind_mapSpans, Node.name_mapSpans]

theorem isTwoStep_mapSpans (expression : Node) (later : List Node) :
    isTwoStep (expression.mapSpans change) (later.map (Node.mapSpans change)) =
      isTwoStep expression later := by
  simp only [isTwoStep, Node.kind_mapSpans, Node.children_mapSpans]
  cases expression.kind with
  | matchExpr =>
      match expression.children with
      | [] => rfl
      | [_] => rfl
      | bound :: value :: rest =>
          simp only [List.map_cons, Node.kind_mapSpans, Node.name_mapSpans, readPath?_mapSpans]
          cases readPath? value with
          | none => rfl
          | some path =>
              simp [List.any_map, Function.comp_def, writesBack_mapSpans]
  | _ => rfl

theorem updates_map (expressions : List Node) :
    updates (expressions.map (Node.mapSpans change)) =
      (updates expressions).map (Node.mapSpans change) := by
  induction expressions with
  | nil => rfl
  | cons expression later inductionHypothesis =>
      rw [List.map_cons, updates, updates, valueOf_mapSpans, isInline_mapSpans,
        isTwoStep_mapSpans, inductionHypothesis]
      split <;> rfl

theorem check_mapSpans (n : Node) :
    check (n.mapSpans change) = (check n).map (Finding.mapSpan change) := by
  rw [check, check, Node.children_mapSpans, updates_map, List.map_map, List.map_map]
  refine List.map_congr_left fun expression _ => ?_
  simp [byHand, Finding.mapSpan]

end NestedUpdate

/-! ## Options and status pairs -/

namespace OptionFormat

theorem namesOptions_mapSpans (names : List String) (n : Node) :
    namesOptions names (n.mapSpans change) = namesOptions names n := by
  induction n using Node.childInduction with
  | step n inductionHypothesis =>
      obtain ⟨kind, span, attributes, children⟩ := n
      rw [Node.mapSpans_mk]
      cases kind with
      | matchExpr =>
          match children with
          | [] => rfl
          | [_] => rfl
          | left :: right :: rest =>
              rw [List.map_cons, List.map_cons, namesOptions, namesOptions,
                inductionHypothesis left (by simp), inductionHypothesis right (by simp)]
      | _ => rfl

theorem takesOptionMap_mapSpans (names : List String) (n : Node) :
    takesOptionMap names (n.mapSpans change) = takesOptionMap names n := by
  induction n using Node.childInduction with
  | step n inductionHypothesis =>
      obtain ⟨kind, span, attributes, children⟩ := n
      have whole := Node.mapSpans_mk change kind span attributes children
      rw [whole]
      cases kind with
      | matchExpr =>
          match children with
          | [] => rfl
          | [_] => rfl
          | left :: right :: rest =>
              have sameNames := namesOptions_mapSpans change names
                ⟨.matchExpr, span, attributes, left :: right :: rest⟩
              rw [whole] at sameNames
              rw [List.map_cons, List.map_cons] at sameNames ⊢
              rw [takesOptionMap, takesOptionMap, sameNames, Node.kind_mapSpans,
                Node.kind_mapSpans]
      | default =>
          match children with
          | [] => rfl
          | [_] => rfl
          | pattern :: value :: rest =>
              rw [List.map_cons, List.map_cons, takesOptionMap, takesOptionMap,
                Node.kind_mapSpans, namesOptions_mapSpans,
                inductionHypothesis pattern (by simp)]
      | _ => rfl

theorem check_mapSpans (names : List String) (n : Node) :
    check names (n.mapSpans change) = (check names n).map (Finding.mapSpan change) := by
  simp only [check, Node.children_mapSpans]
  match n.children with
  | [] => rfl
  | [_] => rfl
  | params :: body :: rest =>
      have movedMap : ∀ param,
          optionMap (param.mapSpans change) = (optionMap param).mapSpan change :=
        fun param => by simp [optionMap, Finding.mapSpan]
      have movedList : ∀ site,
          statusList (site.mapSpans change) = (statusList site).mapSpan change :=
        fun site => by simp [statusList, Finding.mapSpan]
      simp only [List.map_cons, Node.children_mapSpans, Node.terminals_mapSpans, List.filter_map,
        List.map_map, List.map_append, Function.comp_def, takesOptionMap_mapSpans,
        Node.isStatusList_mapSpans, movedMap, movedList]

end OptionFormat

/-! ## Generic errors -/

namespace ErrorLocality

theorem branchesOf_mapSpans (n : Node) :
    branchesOf (n.mapSpans change) = (branchesOf n).map (Node.mapSpans change) := by
  simp only [branchesOf, Node.kind_mapSpans, Node.children_mapSpans]
  cases n.kind with
  | caseExpr => simp
  | _ => rfl

theorem fallbackBranches_mapSpans (body : Node) :
    fallbackBranches (body.mapSpans change) =
      (fallbackBranches body).map (Node.mapSpans change) := by
  simp [fallbackBranches, Node.outline_mapSpans, List.flatMap_map, branchesOf_mapSpans,
    ← List.map_flatMap, List.filter_map, Function.comp_def, Option.any_map]

theorem isGenericError_mapSpans (value : Node) :
    isGenericError (value.mapSpans change) = isGenericError value := by
  simp only [isGenericError, Node.kind_mapSpans, Node.children_mapSpans, Node.attr_mapSpans,
    Node.tag?_mapSpans]
  cases value.kind with
  | tuple =>
      match value.children with
      | [] => rfl
      | [_] => rfl
      | [_, reason] => simp
      | _ :: _ :: _ :: _ => rfl
  | _ => rfl

theorem branchesOn_mapSpans (error body : Node) :
    branchesOn (error.mapSpans change) (body.mapSpans change) = branchesOn error body := by
  simp [branchesOn, Node.preorder_mapSpans, List.any_map, Function.comp_def, Option.any_map,
    Node.reduced_mapSpans]

theorem isHandledByCaller_mapSpans (context : ModuleContext) (group : FunctionGroup)
    (error : Node) :
    isHandledByCaller (context.mapSpans change) (group.mapSpans change) (error.mapSpans change) =
      isHandledByCaller context group error := by
  have sameCallers : (context.mapSpans change).graph.callers = context.graph.callers := rfl
  have sameScope : (context.mapSpans change).scope = context.scope.mapSpans change := rfl
  simp only [isHandledByCaller, sameCallers, sameScope, FunctionGroup.key_mapSpans,
    ModuleScope.function?_mapSpans, Option.any_map, Function.comp_def,
    FunctionGroup.bodies_mapSpans, List.any_map, branchesOn_mapSpans]

theorem isUnhandled_mapSpans (context : ModuleContext) (group : FunctionGroup) (branch : Node) :
    isUnhandled (context.mapSpans change) (group.mapSpans change) (branch.mapSpans change) =
      isUnhandled context group branch := by
  simp only [isUnhandled, Node.branchParts?_mapSpans]
  cases branch.branchParts? with
  | none => rfl
  | some parts =>
      obtain ⟨pattern, body⟩ := parts
      simp only [Option.map_some, Option.bind_some, Prod.map, Node.singleExpression?_mapSpans]
      cases body.singleExpression? with
      | none => rfl
      | some produced =>
          simp only [Option.map_some, isGenericError_mapSpans, isHandledByCaller_mapSpans]

theorem check_mapSpans (context : ModuleContext) (site : Site) :
    check (context.mapSpans change) (site.mapSpans change) =
      (check context site).map (Finding.mapSpan change) := by
  have sameScope : (context.mapSpans change).scope = context.scope.mapSpans change := rfl
  simp only [check, sameScope, Site.mapSpans, ModuleScope.functionForClause?_mapSpans,
    Node.children_mapSpans]
  cases context.scope.functionForClause? site.path with
  | none => rfl
  | some group =>
      match site.node.children with
      | [] => rfl
      | [_] => rfl
      | params :: body :: rest =>
          have moved : ∀ branch, genericError (group.mapSpans change) (branch.mapSpans change) =
              (genericError group branch).mapSpan change :=
            fun branch => by simp [genericError, Finding.mapSpan]
          simp only [Option.map_some, List.map_cons, fallbackBranches_mapSpans, List.filter_map,
            List.map_map, Function.comp_def, isUnhandled_mapSpans, moved]

end ErrorLocality

/-! ## Tagged results -/

namespace Tagging

/-- Return sites with their kinds, at other source ranges. -/
abbrev mapSites : List (Node × ReturnKind) → List (Node × ReturnKind) :=
  List.map (Prod.map (Node.mapSpans change) id)

theorem judge_mapSpans (group : FunctionGroup) (n : Node) (sites : List (Node × ReturnKind)) :
    judge (group.mapSpans change) (n.mapSpans change) (mapSites change sites) =
      (judge group n sites).map (Finding.mapSpan change) := by
  simp only [judge, mapSites, List.any_map, List.all_map, List.filter_map, List.map_map,
    Function.comp_def, Prod.map_fst, Prod.map_snd, id_eq, FunctionGroup.key_mapSpans,
    Node.span_mapSpans]
  split
  · rw [List.map_map]
    rfl
  · split <;> rfl

theorem check_mapSpans (scope : ModuleScope) (site : Site) :
    check (scope.mapSpans change) (site.mapSpans change) =
      (check scope site).map (Finding.mapSpan change) := by
  simp only [check, Site.mapSpans, ModuleScope.functionForClause?_mapSpans]
  cases scope.functionForClause? site.path with
  | none => rfl
  | some group =>
      have sameFirst : (group.mapSpans change).first.position = group.first.position := rfl
      have sameSites : ((returnSites (group.mapSpans change)).map fun returned =>
            (returned, returned.returnKind)) =
          mapSites change ((returnSites group).map fun returned =>
            (returned, returned.returnKind)) := by
        simp only [returnSites, FunctionGroup.bodies_mapSpans, List.flatMap_map,
          Node.terminals_mapSpans, ← List.map_flatMap, mapSites, List.map_map, Function.comp_def,
          Node.returnKind_mapSpans, Prod.map, id_eq]
      simp only [Option.map_some, sameFirst, sameSites, judge_mapSpans]
      split <;> rfl

end Tagging

/-! ## All rules -/

/-- A rule finds the same at a site whose ranges change, at the changed
ranges. -/
theorem Rule.findings_mapSpans (rule : Rule) (settings : RuleSettings) (context : ModuleContext)
    (site : Site) :
    rule.findings settings (context.mapSpans change) (site.mapSpans change) =
      (rule.findings settings context site).map (Finding.mapSpan change) := by
  cases rule with
  | withElseCoverage =>
      exact WithElse.coverage_mapSpans change settings.trusted context.scope site.node
  | withElseRedundancy =>
      exact WithElse.redundancy_mapSpans change settings.trusted context.scope site.node
  | withElseOrder => exact WithElse.order_mapSpans change settings.trusted context.scope site.node
  | errorMapping =>
      exact ErrorMapping.check_mapSpans change settings.trusted context.scope site.node
  | moduledocScope => exact ModuleForm.moduledocScope_mapSpans change context.scope site.node
  | importScope => exact ModuleForm.importScope_mapSpans change context.scope site
  | testCaseUsage =>
      exact ModuleForm.testCaseUsage_mapSpans change context.scope settings.testSupport site.node
  | sequentialNaming => exact Naming.sequential_mapSpans change site.node
  | predicateNaming => exact Naming.predicate_mapSpans change settings context.scope site
  | functionOrder => exact FunctionOrder.check_mapSpans change context.scope context.graph
  | flowDirectiveChoice => exact Flow.directiveChoice_mapSpans change site.node
  | patternMatchingUsage => exact Extraction.check_mapSpans change site.node
  | nestedStructureMacroUsage => exact NestedUpdate.check_mapSpans change site.node
  | optionFormat => exact OptionFormat.check_mapSpans change settings.optionNames site.node
  | errorHandlingLocality => exact ErrorLocality.check_mapSpans change context site
  | okErrorReturnConsistency => exact Tagging.check_mapSpans change context.scope site

end StyleAudit
