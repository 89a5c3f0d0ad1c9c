import StyleAudit.Proofs.Module.ClauseMap
import StyleAudit.Proofs.Module.Scope
import StyleAudit.Proofs.Ranges.Expression

/-!
# Modules with other source ranges

The scope of a module is looked up by names, numbers of parameters and positions,
never by ranges: when the ranges of the module change, its scope is the same with
its ranges changed (`ofModule_mapSpans`), and a module that has none is at fault in
the same way.
-/

namespace StyleAudit

open Outcome (mapBoth mapBoth_bind)

variable (change : Span → Span)

/-! ## Parts of a scope -/

def Clause.mapSpans (clause : Clause) : Clause :=
  { clause with node := clause.node.mapSpans change }

def FunctionGroup.mapSpans (group : FunctionGroup) : FunctionGroup :=
  { group with
    first := group.first.mapSpans change
    others := group.others.map (Clause.mapSpans change) }

def ImportDecl.mapSpan (decl : ImportDecl) : ImportDecl :=
  { decl with span := change decl.span }

def UseDecl.mapSpan (decl : UseDecl) : UseDecl :=
  { decl with span := change decl.span }

def CallRef.mapSpan (ref : CallRef) : CallRef :=
  { ref with span := change ref.span }

def Directive.mapSpans (directive : Directive) : Directive :=
  { directive with node := directive.node.mapSpans change }

/-- The scope with every source range changed. -/
def ModuleScope.mapSpans (scope : ModuleScope) : ModuleScope :=
  { scope with
    span := change scope.span
    functions := scope.functions.map (FunctionGroup.mapSpans change)
    imports := scope.imports.map (ImportDecl.mapSpan change)
    uses := scope.uses.map (UseDecl.mapSpan change)
    attributes := scope.attributes.map (Prod.map id change)
    references := scope.references.map (CallRef.mapSpan change) }

/-- The call graph with the ranges of calls changed. -/
def CallGraph.mapSpans (graph : CallGraph) : CallGraph :=
  { graph with unresolved := graph.unresolved.map (CallRef.mapSpan change) }

/-- The fault at another source range. -/
def ModuleFault.mapSpan : ModuleFault → ModuleFault
  | notModule found span => .notModule found (change span)
  | mixedVisibility key span => .mixedVisibility key (change span)
  | badImportEntry entry span => .badImportEntry entry (change span)

/-- The fault at another source range; an arity that stops the run has none. -/
def IndexFault.mapSpan : IndexFault → IndexFault
  | confined fault => .confined (fault.mapSpan change)
  | arity fault => .arity fault

/-! ## Functions -/

@[simp]
theorem Clause.params_mapSpans (clause : Clause) :
    (clause.mapSpans change).params = clause.params.map (Node.mapSpans change) := by
  simp only [params, mapSpans, Node.children_mapSpans]
  cases clause.node.children with
  | nil => rfl
  | cons params rest => exact Node.children_mapSpans change params

@[simp]
theorem Clause.body?_mapSpans (clause : Clause) :
    (clause.mapSpans change).body? = clause.body?.map (Node.mapSpans change) := by
  simp only [body?, mapSpans, Node.children_mapSpans]
  match clause.node.children with
  | [] => rfl
  | [_] => rfl
  | _ :: _ :: _ => rfl

@[simp]
theorem Clause.key_mapSpans (clause : Clause) : (clause.mapSpans change).key = clause.key := by
  rw [key, key, params_mapSpans, List.length_map, mapSpans, Node.name_mapSpans]

@[simp]
theorem Clause.minArity_mapSpans (clause : Clause) :
    (clause.mapSpans change).minArity = clause.minArity := by
  simp [minArity, List.countP_map, Function.comp_def]

@[simp]
theorem Clause.visibility_mapSpans (clause : Clause) :
    (clause.mapSpans change).visibility = clause.visibility := by
  simp [visibility, mapSpans]

@[simp]
theorem FunctionGroup.key_mapSpans (group : FunctionGroup) :
    (group.mapSpans change).key = group.key :=
  rfl

@[simp]
theorem FunctionGroup.clauses_mapSpans (group : FunctionGroup) :
    (group.mapSpans change).clauses = group.clauses.map (Clause.mapSpans change) :=
  rfl

@[simp]
theorem FunctionGroup.bodies_mapSpans (group : FunctionGroup) :
    (group.mapSpans change).bodies = group.bodies.map (Node.mapSpans change) := by
  simp [bodies, List.filterMap_map, List.map_filterMap]

theorem clausesOf_map_mapSpans (forms : List Node) :
    clausesOf (forms.map (Node.mapSpans change)) =
      (clausesOf forms).map (Clause.mapSpans change) := by
  simp [clausesOf, List.zipIdx_map, List.filter_map, Function.comp_def, Clause.mapSpans]

theorem groupClauses_mapSpans (clauses : List Clause) :
    groupClauses (clauses.map (Clause.mapSpans change)) =
      mapBoth (ModuleFault.mapSpan change) (List.map (FunctionGroup.mapSpans change))
        (groupClauses clauses) := by
  apply groupClauses_map
  intro clause _
  refine ⟨clause.key_mapSpans change, clause.minArity_mapSpans change,
    clause.visibility_mapSpans change, ?_⟩
  simp [ModuleFault.mapSpan, Clause.mapSpans]

/-! ## Directives -/

theorem directivesAmong_map {ns : List Node} {path : NodePath} {inFunction : Bool}
    (each : ∀ n ∈ ns, ∀ path, directivesBelow path inFunction (n.mapSpans change) =
      (directivesBelow path inFunction n).map (Directive.mapSpans change)) (position : Nat) :
    directivesAmong path inFunction position (ns.map (Node.mapSpans change)) =
      (directivesAmong path inFunction position ns).map (Directive.mapSpans change) := by
  induction ns generalizing position with
  | nil => rfl
  | cons n rest inductionHypothesis =>
      rw [List.map_cons, directivesAmong, directivesAmong, List.map_append,
        each n List.mem_cons_self,
        inductionHypothesis fun other member => each other (List.mem_cons_of_mem n member)]

theorem directivesBelow_mapSpans (path : NodePath) (inFunction : Bool) (n : Node) :
    directivesBelow path inFunction (n.mapSpans change) =
      (directivesBelow path inFunction n).map (Directive.mapSpans change) := by
  induction n using Node.childInduction generalizing path inFunction with
  | step n inductionHypothesis =>
      obtain ⟨kind, span, attributes, children⟩ := n
      have whole := Node.mapSpans_mk change kind span attributes children
      have among : directivesAmong path (inFunction || kind == .function) 0
          (children.map (Node.mapSpans change)) =
            (directivesAmong path (inFunction || kind == .function) 0 children).map
              (Directive.mapSpans change) :=
        directivesAmong_map change (fun child member path => inductionHypothesis child member path _) 0
      rw [whole, directivesBelow, directivesBelow, among]
      by_cases isModule : kind = .module
      · rw [if_pos isModule, if_pos isModule, List.map_nil]
      · rw [if_neg isModule, if_neg isModule, List.map_append]
        congr 1
        split
        · rw [List.map_singleton, Directive.mapSpans, whole]
        · rfl

theorem importEntry_mapSpan (entry : Literal) (span : Span) :
    importEntry entry (change span) =
      mapBoth (IndexFault.mapSpan change) id (importEntry entry span) := by
  rw [importEntry, importEntry]
  generalize Text.splitLast '/' entry.plainText.toList = parts
  obtain ⟨name, digits⟩ := parts
  simp only
  split
  · rfl
  · split
    · split <;> rfl
    · rfl

theorem importRestriction_mapSpan (only : Attribute) (span : Span) :
    importRestriction only (change span) =
      mapBoth (IndexFault.mapSpan change) id (importRestriction only span) := by
  cases only with
  | one literal =>
      have sameEntry := importEntry_mapSpan change literal span
      cases literal with
      | null => rfl
      | _ =>
          show (importEntry _ (change span)).map _ = mapBoth _ id ((importEntry _ span).map _)
          rw [sameEntry]
          cases importEntry _ span <;> rfl
  | many entries =>
      have each : (entries.map id).mapM (importEntry · (change span)) =
          mapBoth (IndexFault.mapSpan change) (List.map id) (entries.mapM (importEntry · span)) :=
        Outcome.mapM_mapBoth (fun entry => importEntry_mapSpan change entry span) entries
      rw [List.map_id] at each
      rw [importRestriction, importRestriction, each]
      cases entries.mapM (importEntry · span) with
      | error fault => rfl
      | ok keys => simp [mapBoth, Except.map]

theorem ImportDecl.ofDirective_mapSpans (directive : Directive) :
    ofDirective (directive.mapSpans change) =
      mapBoth (IndexFault.mapSpan change) (ImportDecl.mapSpan change) (ofDirective directive) := by
  simp only [ofDirective, Directive.mapSpans, Node.attr_mapSpans, Node.span_mapSpans,
    importRestriction_mapSpan]
  cases importSelector? (directive.node.attr "only") with
  | some selector => rfl
  | none => cases importRestriction (directive.node.attr "only") directive.node.span <;> rfl

theorem filter_kind_mapSpans (directives : List Directive) (kind : Kind) :
    (directives.map (Directive.mapSpans change)).filter (·.node.kind == kind) =
      (directives.filter (·.node.kind == kind)).map (Directive.mapSpans change) := by
  simp [List.filter_map, Function.comp_def, Directive.mapSpans]

theorem directivesOf_mapSpans (m : Node) :
    directivesAmong [] false 0 (m.mapSpans change).children =
      (directivesAmong [] false 0 m.children).map (Directive.mapSpans change) := by
  rw [Node.children_mapSpans]
  exact directivesAmong_map change (fun n _ path => directivesBelow_mapSpans change path false n) 0

/-! ## Attributes -/

@[simp]
theorem isDocumentation_mapSpans (form : Node) :
    isDocumentation (form.mapSpans change) = isDocumentation form := by
  rw [isDocumentation, isDocumentation, Node.children_mapSpans]
  cases form.children with
  | nil => rfl
  | cons value rest => simp

theorem hasDocumentation_map (forms : List Node) :
    hasDocumentation (forms.map (Node.mapSpans change)) = hasDocumentation forms := by
  simp only [hasDocumentation, List.filter_map, List.getLast?_map, Function.comp_def,
    Node.kind_mapSpans, Node.name_mapSpans]
  cases (forms.filter fun form =>
      form.kind == .moduleAttribute && form.name == "moduledoc").getLast? with
  | none => rfl
  | some form => exact isDocumentation_mapSpans change form

theorem firstAttributes_map (forms : List Node) :
    firstAttributes (forms.map (Node.mapSpans change)) =
      (firstAttributes forms).map (Prod.map id change) := by
  have sameForms : (forms.map (Node.mapSpans change)).filter (·.kind == .moduleAttribute) =
      (forms.filter (·.kind == .moduleAttribute)).map (Node.mapSpans change) := by
    simp [List.filter_map, Function.comp_def]
  rw [firstAttributes, firstAttributes, sameForms, List.foldl_map]
  show List.foldl _ (List.map (Prod.map id change) []) _ = _
  refine List.foldl_hom (List.map (Prod.map id change)) fun found form => ?_
  simp only [List.any_map, Function.comp_def, Prod.map_fst, id_eq, Node.name_mapSpans,
    Node.span_mapSpans]
  split
  · rfl
  · rw [List.map_append]
    rfl

/-! ## Call sites -/

section Calls

variable (functions : List FunctionGroup) (imports : List ImportDecl) (moduleName : String)

theorem resolveIn_map (key : FunctionKey) :
    resolveIn (functions.map (FunctionGroup.mapSpans change)) key =
      (resolveIn functions key).map (FunctionGroup.mapSpans change) :=
  resolveIn_mapClauses functions key

theorem importedFrom?_map (key : FunctionKey) :
    importedFrom? (imports.map (ImportDecl.mapSpan change)) key = importedFrom? imports key := by
  rw [importedFrom?, importedFrom?, List.find?_map, Option.map_map]
  rfl

theorem ofCall_mapSpans (caller : Option FunctionKey) (call : Node) (arity : Nat) :
    CallRef.ofCall moduleName (functions.map (FunctionGroup.mapSpans change))
        (imports.map (ImportDecl.mapSpan change)) caller (call.mapSpans change) arity =
      (CallRef.ofCall moduleName functions imports caller call arity).mapSpan change := by
  simp only [CallRef.ofCall, CallRef.mapSpan, resolveIn_map, importedFrom?_map,
    Node.qualifier?_mapSpans, Node.name_mapSpans, Node.span_mapSpans]
  split <;> simp [Function.comp_def]

theorem formReferences_mapSpans (caller : Option FunctionKey) (form : Node) :
    formReferences moduleName (functions.map (FunctionGroup.mapSpans change))
        (imports.map (ImportDecl.mapSpan change)) caller (form.mapSpans change) =
      (formReferences moduleName functions imports caller form).map (CallRef.mapSpan change) := by
  rw [formReferences, formReferences, Node.calls_mapSpans, List.map_map, List.map_map]
  exact List.map_congr_left fun called _ =>
    ofCall_mapSpans change functions imports moduleName caller called.1 called.2

theorem moduleReferences_mapSpans (forms : List Node) :
    moduleReferences moduleName (functions.map (FunctionGroup.mapSpans change))
        (imports.map (ImportDecl.mapSpan change)) (forms.map (Node.mapSpans change)) =
      (moduleReferences moduleName functions imports forms).map (CallRef.mapSpan change) := by
  have sameForms : ((forms.map (Node.mapSpans change)).filter fun form =>
        form.kind != .function && form.kind != .module) =
      (forms.filter fun form => form.kind != .function && form.kind != .module).map
        (Node.mapSpans change) := by
    simp [List.filter_map, Function.comp_def]
  rw [moduleReferences, moduleReferences, List.map_append, sameForms]
  congr 1
  · rw [List.flatMap_map, List.map_flatMap]
    refine List.flatMap_congr fun group _ => ?_
    rw [FunctionGroup.clauses_mapSpans, List.flatMap_map, List.map_flatMap]
    exact List.flatMap_congr fun clause _ =>
      formReferences_mapSpans change functions imports moduleName (some group.key) clause.node
  · rw [List.flatMap_map, List.map_flatMap]
    exact List.flatMap_congr fun form _ =>
      formReferences_mapSpans change functions imports moduleName none form

end Calls

/-! ## Scopes -/

theorem ofParts_mapSpans (isNested : String → Bool) (m : Node) (functions : List FunctionGroup)
    (imports : List ImportDecl) :
    ModuleScope.ofParts isNested (m.mapSpans change)
        (functions.map (FunctionGroup.mapSpans change)) (imports.map (ImportDecl.mapSpan change)) =
      (ModuleScope.ofParts isNested m functions imports).mapSpans change := by
  simp only [ModuleScope.ofParts, ModuleScope.mapSpans, directivesOf_mapSpans,
    filter_kind_mapSpans]
  simp only [Node.children_mapSpans, hasDocumentation_map, firstAttributes_map,
    moduleReferences_mapSpans, Node.name_mapSpans, Node.span_mapSpans, List.map_map]
  congr 1
  refine List.map_congr_left fun directive _ => ?_
  simp [Directive.mapSpans, UseDecl.mapSpan]

theorem importsOf_mapSpans (m : Node) :
    importsOf (m.mapSpans change) = (importsOf m).map (Directive.mapSpans change) := by
  rw [importsOf, importsOf, directivesOf_mapSpans, filter_kind_mapSpans]

theorem confine_mapBoth {value : Type} (onValue : value → value)
    (step : Except ModuleFault value) :
    confine (mapBoth (ModuleFault.mapSpan change) onValue step) =
      mapBoth (IndexFault.mapSpan change) onValue (confine step) := by
  cases step <;> rfl

/-- The scope of a module whose ranges change is its scope with the ranges
changed. -/
theorem ofModule_mapSpans (isNested : String → Bool) (m : Node) :
    ModuleScope.ofModule isNested (m.mapSpans change) =
      mapBoth (IndexFault.mapSpan change) (ModuleScope.mapSpans change)
        (ModuleScope.ofModule isNested m) := by
  by_cases isModule : m.kind = .module
  · have sameImports : (importsOf (m.mapSpans change)).mapM ImportDecl.ofDirective =
        mapBoth (IndexFault.mapSpan change) (List.map (ImportDecl.mapSpan change))
          ((importsOf m).mapM ImportDecl.ofDirective) := by
      rw [importsOf_mapSpans]
      exact Outcome.mapM_mapBoth (ImportDecl.ofDirective_mapSpans change) (importsOf m)
    rw [ofModule_eq_ofParts isNested isModule, ofModule_eq_ofParts isNested (by simpa using isModule),
      Node.children_mapSpans, clausesOf_map_mapSpans, groupClauses_mapSpans, confine_mapBoth,
      sameImports]
    refine mapBoth_bind (fun functions => ?_) _
    refine mapBoth_bind (fun imports => ?_) _
    exact congrArg Except.ok (ofParts_mapSpans change isNested m functions imports)
  · have isOther : (m.mapSpans change).kind ≠ .module := by simpa using isModule
    rw [ModuleScope.ofModule, ModuleScope.ofModule, if_pos isModule, if_pos isOther,
      Node.kind_mapSpans, Node.span_mapSpans]
    rfl

theorem ofScope_mapSpans (scope : ModuleScope) :
    CallGraph.ofScope (scope.mapSpans change) = (CallGraph.ofScope scope).mapSpans change := by
  simp only [CallGraph.ofScope, CallGraph.mapSpans, ModuleScope.mapSpans, List.map_map,
    List.filter_map, List.filterMap_map]
  rfl

end StyleAudit
