import StyleAudit.Proofs.Pipes.Scope

/-!
# Imports put into a function

The imports of a module are one list in source order, those that stand in its
functions included. An import directive that is put into the body of a function
(`Node.InsertsImport`) adds what it declares at one place of that list and leaves
the functions that calls are resolved to (`exists_gainsImports`).
-/

namespace StyleAudit

open Outcome (mapBoth)

/-! ## Lists with a block more -/

section Blocks

variable {item other : Type} {added old new : List item}

/-- The new list is the old one with a block added at one place. -/
def GainsBlock (added old new : List item) : Prop :=
  ∃ before after, old = before ++ after ∧ new = before ++ added ++ after

namespace GainsBlock

theorem refl (items : List item) : GainsBlock [] items items :=
  ⟨items, [], (List.append_nil items).symm, by simp⟩

theorem append_left (gains : GainsBlock added old new) (first : List item) :
    GainsBlock added (first ++ old) (first ++ new) := by
  obtain ⟨before, after, rfl, rfl⟩ := gains
  exact ⟨first ++ before, after, by simp, by simp⟩

theorem append_right (gains : GainsBlock added old new) (last : List item) :
    GainsBlock added (old ++ last) (new ++ last) := by
  obtain ⟨before, after, rfl, rfl⟩ := gains
  exact ⟨before, after ++ last, by simp, by simp⟩

theorem filter (gains : GainsBlock added old new) (keeps : item → Bool) :
    GainsBlock (added.filter keeps) (old.filter keeps) (new.filter keeps) := by
  obtain ⟨before, after, rfl, rfl⟩ := gains
  exact ⟨before.filter keeps, after.filter keeps, by simp, by simp⟩

/-- One of the items that the lists are made from is changed. -/
theorem flatMap_modify {sources : List other} {parts : other → List item} {position : Nat}
    {source : other} (found : sources[position]? = some source) {change : other → other}
    (gains : GainsBlock added (parts source) (parts (change source))) :
    GainsBlock added (sources.flatMap parts) ((sources.modify position change).flatMap parts) := by
  obtain ⟨inRange, rfl⟩ := List.getElem?_eq_some_iff.mp found
  have split : sources =
      sources.take position ++ sources[position] :: sources.drop (position + 1) := by
    rw [← List.drop_eq_getElem_cons inRange, List.take_append_drop]
  have around := (gains.append_right ((sources.drop (position + 1)).flatMap parts)).append_left
    ((sources.take position).flatMap parts)
  rw [← List.flatMap_cons, ← List.flatMap_cons, ← List.flatMap_append, ← List.flatMap_append,
    ← split] at around
  rwa [List.modify_eq_take_cons_drop inRange]

end GainsBlock

end Blocks

/-! ## Directives -/

variable {n m m' directive block : Node} {path way : NodePath} {position : Nat}
  {before after : List Node}

/-- The node has one more child. -/
def Node.withChild (block : Node) (before : List Node) (child : Node) (after : List Node) : Node :=
  { block with children := before ++ child :: after }

/-- The node itself, if it is a directive. -/
def Node.ownDirective (inFunction : Bool) (n : Node) : List Directive :=
  if n.kind = .importDirective ∨ n.kind = .useDirective then [⟨[], inFunction, n.bare⟩] else []

theorem Node.directives_of_module (isModule : n.kind = .module) (inFunction : Bool) :
    n.directives inFunction = [] := by
  rw [directives_eq, if_pos isModule]

theorem Node.directives_of_ne_module (notModule : n.kind ≠ .module) (inFunction : Bool) :
    n.directives inFunction = n.ownDirective inFunction ++
      n.children.flatMap (directives (inFunction || n.kind == .function)) := by
  rw [directives_eq, if_neg notModule, ownDirective]

theorem Node.enclosing_ne_nil (isModule : n.kind = .module) (path : NodePath) :
    n.enclosing path ≠ [] := by
  cases path <;> simp [enclosing, asModule, isModule]

theorem Node.enclosing_cons_of_ne_module {child : Node}
    (found : n.children[position]? = some child) (notModule : n.kind ≠ .module) :
    n.enclosing (position :: way) = child.enclosing way := by
  rw [enclosing_cons found, asModule, if_neg notModule, List.nil_append]

/-- The directives that a new child at the end of a path adds to those of a function:
none where the path leads into a module. -/
def Node.directivesAdded (n : Node) (path : NodePath) (directive : Node) : List Directive :=
  if n.enclosing path = [] then directive.directives true else []

/-- Inside a function the directives of a new child come in one block. -/
theorem Node.gainsBlock_directives (reached : n.at? path = some block)
    (children : block.children = before ++ after) :
    GainsBlock (n.directivesAdded path directive) (n.directives true)
      ((n.replaceAt path (block.withChild before directive after)).directives true) := by
  induction path generalizing n with
  | nil =>
      have same : n = block := Option.some.inj reached
      subst same
      rw [replaceAt, directivesAdded]
      by_cases isModule : n.kind = .module
      · have stillModule : (n.withChild before directive after).kind = .module := isModule
        rw [if_neg (enclosing_ne_nil isModule _), directives_of_module isModule,
          directives_of_module stillModule]
        exact .refl []
      · have stillNot : (n.withChild before directive after).kind ≠ .module := isModule
        have outside : n.enclosing [] = [] := if_neg isModule
        have inChildren : GainsBlock (directive.directives true)
            (n.children.flatMap (directives true))
            ((before ++ directive :: after).flatMap (directives true)) := by
          refine ⟨before.flatMap (directives true), after.flatMap (directives true), ?_, ?_⟩
          · rw [children, List.flatMap_append]
          · rw [List.flatMap_append, List.flatMap_cons, List.append_assoc]
        rw [if_pos outside, directives_of_ne_module isModule, directives_of_ne_module stillNot]
        exact inChildren.append_left (n.ownDirective true)
  | cons position way inductionHypothesis =>
      obtain ⟨child, found, below⟩ := at?_cons_eq_some_iff.mp reached
      by_cases isModule : n.kind = .module
      · have stillModule : (n.replaceAt (position :: way)
            (block.withChild before directive after)).kind = .module := isModule
        rw [directivesAdded, if_neg (enclosing_ne_nil isModule _), directives_of_module isModule,
          directives_of_module stillModule]
        exact .refl []
      · have stillNot : (n.replaceAt (position :: way)
            (block.withChild before directive after)).kind ≠ .module := isModule
        have inChildren : GainsBlock (child.directivesAdded way directive)
            (n.children.flatMap (directives true))
            ((n.children.modify position fun child =>
              child.replaceAt way (block.withChild before directive after)).flatMap
                (directives true)) :=
          GainsBlock.flatMap_modify found (inductionHypothesis below)
        rw [directivesAdded, enclosing_cons_of_ne_module found isModule,
          directives_of_ne_module isModule, directives_of_ne_module stillNot, replaceAt]
        exact inChildren.append_left (n.ownDirective true)

/-- An import directive is put into the body of the function at a position, as a child of
the node to which the way leads from there. -/
inductive Node.InsertsImport (m : Node) (position : Nat) (way : NodePath) (directive : Node) :
    Node → Prop
  | intro {form block : Node} {before after : List Node}
      (found : m.children[position]? = some form) (isFunction : form.kind = .function)
      (reached : form.at? (1 :: way) = some block) (children : block.children = before ++ after)
      (isImport : directive.kind = .importDirective) :
      m.InsertsImport position way directive
        (m.replaceAt (position :: 1 :: way) (block.withChild before directive after))

/-- The imports of the module are the same with those of the directive in one block,
unless the directive is put into a nested module. -/
theorem Node.InsertsImport.gainsBlock (inserts : m.InsertsImport position way directive m')
    (isModule : m.kind = .module) :
    GainsBlock
      ((if (m.enclosing (position :: 1 :: way)).tail = []
        then directive.directives true else []).filter (·.node.kind == .importDirective))
      ((importsOf m).map Directive.unplaced) ((importsOf m').map Directive.unplaced) := by
  rw [importsOf_unplaced, importsOf_unplaced]
  apply GainsBlock.filter
  cases inserts with
  | @intro form block before after found isFunction reached children isImport =>
      have notModule : form.kind ≠ .module := by
        rw [isFunction]
        decide
      have stillNot : (form.replaceAt (1 :: way)
          (block.withChild before directive after)).kind ≠ .module := notModule
      obtain ⟨body, isBody, inBody⟩ := at?_cons_eq_some_iff.mp reached
      have inForm : GainsBlock (body.directivesAdded way directive)
          (form.children.flatMap (directives true))
          ((form.children.modify 1 fun child =>
            child.replaceAt way (block.withChild before directive after)).flatMap
              (directives true)) :=
        GainsBlock.flatMap_modify isBody (gainsBlock_directives inBody children)
      have flagged : (false || form.kind == .function) = true := by
        rw [isFunction]
        rfl
      have sameAdded : (if (m.enclosing (position :: 1 :: way)).tail = []
          then directive.directives true else []) = body.directivesAdded way directive := by
        rw [enclosing_cons found, enclosing_cons_of_ne_module isBody notModule, asModule,
          if_pos isModule, List.singleton_append, List.tail_cons, directivesAdded]
      rw [sameAdded]
      refine GainsBlock.flatMap_modify found ?_
      rw [directives_of_ne_module notModule, directives_of_ne_module stillNot, flagged, replaceAt,
        flagged]
      exact inForm.append_left (form.ownDirective false)

/-! ## Functions -/

/-- The clause with another node, if it stands at the position. -/
def Clause.changeAt (position : Nat) (change : Node → Node) (clause : Clause) : Clause :=
  if clause.position = position then { clause with node := change clause.node } else clause

theorem Clause.changeAt_of_eq {change : Node → Node} {clause : Clause}
    (here : clause.position = position) :
    clause.changeAt position change = { clause with node := change clause.node } :=
  if_pos here

theorem Clause.changeAt_of_ne {change : Node → Node} {clause : Clause}
    (elsewhere : clause.position ≠ position) : clause.changeAt position change = clause :=
  if_neg elsewhere

/-- A form that changes but keeps its kind changes no clause but its own. -/
theorem clausesOf_modify {forms : List Node} {change : Node → Node} {form : Node}
    (found : forms[position]? = some form) (sameKind : (change form).kind = form.kind) :
    clausesOf (forms.modify position change) =
      (clausesOf forms).map (Clause.changeAt position change) := by
  have indexed : (forms.modify position change).zipIdx = forms.zipIdx.map fun indexed =>
      if indexed.2 = position then (change indexed.1, indexed.2) else indexed := by
    apply List.ext_getElem?
    intro place
    rw [List.getElem?_zipIdx, List.getElem?_map, List.getElem?_zipIdx, List.getElem?_modify]
    cases forms[place]? with
    | none => rfl
    | some other =>
        by_cases here : position = place
        · simp [here]
        · simp [here, Ne.symm here]
  rw [clausesOf, clausesOf, indexed, List.filter_map, List.map_map, List.map_map]
  have sameFilter : (forms.zipIdx.filter ((fun indexed : Node × Nat =>
      indexed.1.kind == .function) ∘ fun indexed =>
        if indexed.2 = position then (change indexed.1, indexed.2) else indexed)) =
      forms.zipIdx.filter fun indexed => indexed.1.kind == .function := by
    refine List.filter_congr fun indexed member => ?_
    have place := List.mem_zipIdx_iff_getElem?.mp member
    by_cases here : indexed.2 = position
    · rw [here, found] at place
      cases place
      simp [here, sameKind]
    · simp [here]
  rw [sameFilter]
  refine List.map_congr_left fun indexed _ => ?_
  by_cases here : indexed.2 = position
  · simp [Clause.changeAt, here]
  · simp [Clause.changeAt, here]

/-- A change inside the body of a function leaves what its clauses are joined by. -/
theorem Clause.staysGrouped_changeAt (change : Node → Node) (clause : Clause) :
    clause.StaysGrouped (changeAt position fun form =>
      { form with children := form.children.modify 1 change }) id := by
  by_cases here : clause.position = position
  · have sameParams : (Clause.mk clause.position
        { clause.node with children := clause.node.children.modify 1 change }).params =
          clause.params := by
      rw [params, params]
      rcases clause.node.children with _ | ⟨params, rest⟩ <;> rfl
    refine ⟨?_, ?_, ?_, ?_⟩ <;> rw [changeAt_of_eq here]
    · rw [key, key, sameParams]
      rfl
    · rw [minArity, minArity, sameParams]
    · rfl
    · rfl
  · refine ⟨?_, ?_, ?_, ?_⟩ <;> rw [changeAt_of_ne here]
    rfl

/-! ## Scopes -/

variable {scope scope' : ModuleScope} {isNested : String → Bool}

/-- The imports that the directive declares, and the directives below it. -/
def Node.Declares (directive : Node) (added : List ImportDecl) : Prop :=
  ((directive.directives true).filter (·.node.kind == .importDirective)).mapM
    ImportDecl.ofDirective = .ok added

/-- The other scope resolves calls to the same functions, and has more imports at one
place. -/
structure ModuleScope.GainsImports (scope other : ModuleScope)
    (before added after : List ImportDecl) : Prop where
  name : other.name = scope.name
  resolves : ∀ key, (other.resolve? key).isSome = (scope.resolve? key).isSome
  imports : scope.imports.map ImportDecl.unplaced = before ++ after
  gained : other.imports.map ImportDecl.unplaced = before ++ added ++ after

theorem mapM_ofDirective_eq_ok {directives : List Directive} {imports : List ImportDecl}
    (read : directives.mapM ImportDecl.ofDirective = .ok imports) :
    (directives.map Directive.unplaced).mapM ImportDecl.ofDirective =
      .ok (imports.map ImportDecl.unplaced) := by
  rw [Outcome.mapM_mapBoth ImportDecl.ofDirective_unplaced, read]
  rfl

/-- The declarations of the inserted directives stand in one block among the others. -/
theorem exists_of_gainsBlock {added old new : List Directive}
    {imports imports' : List ImportDecl} (gains : GainsBlock added old new)
    (read : old.mapM ImportDecl.ofDirective = .ok imports)
    (read' : new.mapM ImportDecl.ofDirective = .ok imports') :
    ∃ before declared after, added.mapM ImportDecl.ofDirective = .ok declared ∧
      imports = before ++ after ∧ imports' = before ++ declared ++ after := by
  obtain ⟨before, after, rfl, rfl⟩ := gains
  obtain ⟨_, last', readRest', readLast', rfl⟩ := Outcome.mapM_append_eq_ok_iff.mp read'
  obtain ⟨first', declared, readFirst', declares, rfl⟩ :=
    Outcome.mapM_append_eq_ok_iff.mp readRest'
  obtain ⟨first, last, readFirst, readLast, rfl⟩ := Outcome.mapM_append_eq_ok_iff.mp read
  have sameFirst : first = first' := Except.ok.inj (readFirst.symm.trans readFirst')
  have sameLast : last = last' := Except.ok.inj (readLast.symm.trans readLast')
  exact ⟨first, declared, last, declares, rfl, by rw [sameFirst, sameLast]⟩

/-- The functions are the same but for the clause with the import. -/
theorem Node.InsertsImport.resolveIn_isSome_eq (inserts : m.InsertsImport position way directive m')
    {functions functions' : List FunctionGroup}
    (grouped : groupClauses (clausesOf m.children) = .ok functions)
    (grouped' : groupClauses (clausesOf m'.children) = .ok functions') (key : FunctionKey) :
    (resolveIn functions' key).isSome = (resolveIn functions key).isSome := by
  cases inserts with
  | @intro form block before after found isFunction reached children isImport =>
      let change (form : Node) : Node :=
        form.replaceAt (1 :: way) (block.withChild before directive after)
      have regrouped : groupClauses (clausesOf (m.children.modify position change)) =
          mapBoth id (List.map (·.mapClauses (Clause.changeAt position change)))
            (groupClauses (clausesOf m.children)) := by
        rw [clausesOf_modify found rfl]
        exact groupClauses_map fun clause _ => Clause.staysGrouped_changeAt _ clause
      rw [grouped] at regrouped
      cases grouped'.symm.trans regrouped
      rw [resolveIn_mapClauses, Option.isSome_map]

/-- Where both modules can be indexed, the second one has the same functions and
imports, and at one place the imports that the directive declares. -/
theorem Node.InsertsImport.exists_gainsImports (inserts : m.InsertsImport position way directive m')
    (indexed : ModuleScope.ofModule isNested m = .ok scope)
    (indexed' : ModuleScope.ofModule isNested m' = .ok scope') :
    ∃ before added after,
      (if (m.enclosing (position :: 1 :: way)).tail = []
        then directive.Declares added else added = []) ∧
      scope.GainsImports scope' before added after := by
  obtain ⟨isModule, functions, grouped, imports, read, rfl⟩ := ofModule_eq_ok_iff.mp indexed
  obtain ⟨_, functions', grouped', imports', read', rfl⟩ := ofModule_eq_ok_iff.mp indexed'
  obtain ⟨before, added, after, declares, split, gained⟩ :=
    exists_of_gainsBlock (inserts.gainsBlock isModule) (mapM_ofDirective_eq_ok read)
      (mapM_ofDirective_eq_ok read')
  refine ⟨before, added, after, ?_, ?_, ?_, split, gained⟩
  · by_cases outside : (m.enclosing (position :: 1 :: way)).tail = []
    · rw [if_pos outside] at declares ⊢
      exact declares
    · rw [if_neg outside] at declares ⊢
      exact (Except.ok.inj declares).symm
  · cases inserts
    rfl
  · intro key
    exact inserts.resolveIn_isSome_eq grouped grouped' key

/-- The trees below other positions are the same. -/
theorem Node.InsertsImport.at?_eq (inserts : m.InsertsImport position way directive m') {other : Nat}
    (elsewhere : other ≠ position) (path : NodePath) :
    m'.at? (other :: path) = m.at? (other :: path) := by
  cases inserts
  simp [at?, replaceAt, Ne.symm elsewhere]

end StyleAudit
