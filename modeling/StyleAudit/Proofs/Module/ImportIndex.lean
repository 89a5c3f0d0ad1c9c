import StyleAudit.Proofs.Expression.CallSite
import StyleAudit.Proofs.Module.Scope
import StyleAudit.Proofs.Table

/-!
# The imports of a module

The walk that collects directives passes a flag down the tree, and the rules look directives
up by the path that another walk takes. Both are described by the nodes that the module has
itself: `directivesAmong_eq_filterMap` lists the directives by their paths, and
`declaresImports_of_ofModule` says that the scope of a module declares each of its imports
once, in their order, and whether a function stands above it.
-/

namespace StyleAudit

variable {n m child : Node} {start path way : NodePath} {position : Nat} {inFunction : Bool}
  {directive : Directive}

/-! ## Directives by their paths -/

/-- The node imports a module or uses a support base. -/
def Node.IsDirective (n : Node) : Prop :=
  n.kind = .importDirective ∨ n.kind = .useDirective

instance (n : Node) : Decidable n.IsDirective :=
  inferInstanceAs (Decidable (_ ∨ _))

/-- A function stands above the path. -/
def Node.InFunction (m : Node) (path : NodePath) : Prop :=
  ∃ before after k, path = before ++ after ∧ after ≠ [] ∧ m.at? before = some k ∧
    k.kind = .function

theorem Node.not_inFunction_nil (m : Node) : ¬m.InFunction [] := by
  rintro ⟨before, after, k, split, remains, -⟩
  exact remains (List.append_eq_nil_iff.mp split.symm).2

theorem Node.inFunction_cons (found : n.children[position]? = some child) :
    n.InFunction (position :: way) ↔ n.kind = .function ∨ child.InFunction way := by
  constructor
  · rintro ⟨before, after, k, split, remains, reached, isFunction⟩
    cases before with
    | nil =>
        cases reached
        exact Or.inl isFunction
    | cons first rest =>
        obtain ⟨rfl, rfl⟩ : position = first ∧ way = rest ++ after := by simpa using split
        rw [at?_cons found] at reached
        exact Or.inr ⟨rest, after, k, rfl, remains, reached, isFunction⟩
  · rintro (isFunction | ⟨before, after, k, rfl, remains, reached, isFunction⟩)
    · exact ⟨[], position :: way, n, rfl, List.cons_ne_nil _ _, rfl, isFunction⟩
    · exact ⟨position :: before, after, k, rfl, remains, (at?_cons found).trans reached,
        isFunction⟩

/-- The directive at a path below a node that leads into no module, where the node stands at
a start and below a function or not. -/
def directiveAt? : NodePath → Bool → Node → NodePath → Option Directive
  | start, inFunction, n, [] => if n.IsDirective then some ⟨start, inFunction, n⟩ else none
  | start, inFunction, n, position :: way =>
    if n.kind = .module then none
    else n.children[position]?.bind fun child =>
      directiveAt? (start ++ [position]) (inFunction || n.kind == .function) child way

theorem directiveAt?_cons (noModule : n.kind ≠ .module)
    (found : n.children[position]? = some child) :
    directiveAt? start inFunction n (position :: way) =
      directiveAt? (start ++ [position]) (inFunction || n.kind == .function) child way := by
  rw [directiveAt?, if_neg noModule, found, Option.bind_some]

/-- A directive is found at a position exactly when one stands there outside all
nested modules, and it is marked by the function around it. -/
theorem directiveAt?_eq_some_iff :
    directiveAt? start inFunction n way = some directive ↔
      n.at? way = some directive.node ∧ directive.node.IsDirective ∧ n.enclosing way = [] ∧
        directive.path = start ++ way ∧
        (directive.inFunction = true ↔ inFunction = true ∨ n.InFunction way) := by
  induction way generalizing start inFunction n with
  | nil =>
      rw [directiveAt?, Node.at?_nil, Node.enclosing, Node.asModule, List.append_nil]
      by_cases isDirective : n.IsDirective
      · have noModule : n.kind ≠ .module := by
          rcases isDirective with isImport | isUse
          · rw [isImport]
            decide
          · rw [isUse]
            decide
        rw [if_pos isDirective, if_neg noModule]
        constructor
        · intro same
          cases same
          exact ⟨rfl, isDirective, rfl, rfl, by simp [n.not_inFunction_nil]⟩
        · obtain ⟨path, flag, k⟩ := directive
          rintro ⟨same, -, -, rfl, sameFlag⟩
          cases same
          rw [or_iff_left (Node.not_inFunction_nil _), ← Bool.eq_iff_iff] at sameFlag
          obtain rfl : flag = inFunction := sameFlag
          rfl
      · rw [if_neg isDirective]
        constructor
        · intro impossible
          cases impossible
        · rintro ⟨same, found, -⟩
          cases same
          exact absurd found isDirective
  | cons position way inductionHypothesis =>
      by_cases isModule : n.kind = .module
      · rw [directiveAt?, if_pos isModule, Node.enclosing, Node.asModule, if_pos isModule]
        simp
      · cases found : n.children[position]? with
        | none =>
            rw [directiveAt?, if_neg isModule, Node.at?, found]
            simp
        | some child =>
            rw [directiveAt?_cons isModule found, inductionHypothesis, Node.at?_cons found,
              Node.enclosing_cons found, Node.asModule, if_neg isModule, List.nil_append,
              Node.inFunction_cons found, Bool.or_eq_true, beq_iff_eq, or_assoc,
              List.append_assoc, List.singleton_append]

theorem directivesAmong_eq_flatMap (path : NodePath) (inFunction : Bool) (position : Nat)
    (ns : List Node) :
    directivesAmong path inFunction position ns = (ns.zipIdx position).flatMap fun indexed =>
      directivesBelow (path ++ [indexed.2]) inFunction indexed.1 := by
  induction ns generalizing position with
  | nil => rfl
  | cons n rest inductionHypothesis =>
      rw [directivesAmong, inductionHypothesis, List.zipIdx_cons, List.flatMap_cons]

/-- The directives of a tree stand at the paths that lead into no module. -/
theorem directivesBelow_eq_filterMap (start : NodePath) (inFunction : Bool) (n : Node) :
    directivesBelow start inFunction n =
      n.positions.filterMap (directiveAt? start inFunction n) := by
  induction n using Node.childInduction generalizing start inFunction with
  | step n inductionHypothesis =>
      have fromChildren : (n.children.zipIdx.flatMap Node.positionsOf).filterMap
            (directiveAt? start inFunction n) =
          if n.kind = .module then []
          else directivesAmong start (inFunction || n.kind == .function) 0 n.children := by
        rw [List.filterMap_flatMap]
        split
        · rename_i isModule
          rw [List.flatMap_eq_nil_iff]
          rintro ⟨child, position⟩ -
          simp [Node.positionsOf, List.filterMap_map, Function.comp_def, directiveAt?, isModule]
        · rename_i noModule
          rw [directivesAmong_eq_flatMap]
          refine List.flatMap_congr ?_
          rintro ⟨child, position⟩ listed
          have found := List.mem_zipIdx_iff_getElem?.mp listed
          rw [inductionHypothesis child (List.mem_of_getElem? found), Node.positionsOf,
            List.filterMap_map]
          exact List.filterMap_congr fun way _ => directiveAt?_cons noModule found
      have here : (directiveAt? start inFunction n []).toList =
          if n.IsDirective then [⟨start, inFunction, n⟩] else [] := by
        rw [directiveAt?]
        split <;> rfl
      have split : n.positions.filterMap (directiveAt? start inFunction n) =
          (directiveAt? start inFunction n []).toList ++
            (n.children.zipIdx.flatMap Node.positionsOf).filterMap
              (directiveAt? start inFunction n) := by
        rw [Node.positions_eq, List.filterMap_cons]
        cases directiveAt? start inFunction n [] <;> rfl
      rw [split, here, fromChildren]
      obtain ⟨kind, span, attributes, children⟩ := n
      rw [directivesBelow]
      by_cases isModule : kind = .module
      · rw [if_pos isModule, if_pos isModule, List.append_nil, if_neg]
        simp [Node.IsDirective, isModule]
      · rw [if_neg isModule, if_neg isModule]
        rfl

/-! ## Directives of a module -/

/-- The directive at a path of a module that leads into no nested one. -/
def Node.ownDirective? (m : Node) : NodePath → Option Directive
  | [] => none
  | position :: way =>
    m.children[position]?.bind fun form => directiveAt? [position] false form way

/-- The directive listed for a position of a module is the one that stands there. -/
theorem Node.ownDirective?_eq_some_iff (isModule : m.kind = .module) :
    m.ownDirective? path = some directive ↔
      m.IsOwn path directive.node ∧ directive.node.IsDirective ∧ directive.path = path ∧
        (directive.inFunction = true ↔ m.InFunction path) := by
  cases path with
  | nil =>
      rw [ownDirective?]
      constructor
      · intro impossible
        cases impossible
      · rintro ⟨own, isDirective, -⟩
        have same := Option.some.inj own.reached
        rw [← same, IsDirective, isModule] at isDirective
        simp at isDirective
  | cons position way =>
      cases found : m.children[position]? with
      | none =>
          rw [ownDirective?, found]
          constructor
          · intro impossible
            cases impossible
          · rintro ⟨own, -⟩
            have reached := own.reached
            rw [at?, found] at reached
            cases reached
      | some form =>
          have inside : m.IsOwn (position :: way) directive.node ↔
              form.at? way = some directive.node ∧ form.enclosing way = [] := by
            constructor
            · intro own
              have enclosed := own.own
              rw [enclosing_cons found, asModule, if_pos isModule, List.singleton_append]
                at enclosed
              exact ⟨(at?_cons found).symm.trans own.reached, (List.cons.inj enclosed).2⟩
            · rintro ⟨reached, outside⟩
              refine ⟨(at?_cons found).trans reached, ?_⟩
              rw [enclosing_cons found, asModule, if_pos isModule, outside,
                List.singleton_append]
          have noFunction : m.kind ≠ .function := by
            rw [isModule]
            decide
          rw [ownDirective?, found, Option.bind_some, directiveAt?_eq_some_iff, inside,
            inFunction_cons found, or_iff_right noFunction, or_iff_right Bool.false_ne_true,
            List.singleton_append]
          tauto

theorem directivesAmong_eq_filterMap (m : Node) :
    directivesAmong [] false 0 m.children = m.positions.filterMap m.ownDirective? := by
  rw [directivesAmong_eq_flatMap, Node.positions_eq, List.filterMap_cons, Node.ownDirective?,
    List.filterMap_flatMap]
  refine List.flatMap_congr ?_
  rintro ⟨form, position⟩ listed
  have found := List.mem_zipIdx_iff_getElem?.mp listed
  rw [directivesBelow_eq_filterMap, Node.positionsOf, List.filterMap_map]
  refine List.filterMap_congr fun way _ => ?_
  rw [Function.comp_apply, Node.ownDirective?, found, Option.bind_some]
  rfl

/-! ## Declarations -/

/-- The imports of a scope are those of the module, each once and in their order, and each can
be looked up. They stand in a function when one stands above them. -/
structure ModuleScope.DeclaresImports (scope : ModuleScope) (m : Node) : Prop where
  order : (scope.imports.map (·.path)).Sublist m.positions
  own : ∀ decl ∈ scope.imports, ∃ n, m.IsOwn decl.path n ∧ n.kind = .importDirective
  each : ∀ path n, m.IsOwn path n → n.kind = .importDirective → ∃ decl,
    scope.imports.filter (·.path == path) = [decl] ∧ scope.importAt? path = some decl ∧
      decl.target = (n.attr "module").plainText ∧ decl.span = n.span ∧
      (decl.inFunction = true ↔ m.InFunction path) ∧
      (decl.isRestricted = false ↔ n.attr "only" = .one .null ∨ n.attr "only" = .many [])

/-- Only an import without a list, or with an empty one, is not restricted. -/
theorem isRestricted_ofRestriction {restriction : Option (List FunctionKey)}
    (read : (if (importSelector? (directive.node.attr "only")).isSome then .ok (some [])
      else importRestriction (directive.node.attr "only") directive.node.span) =
        Except.ok restriction) :
    (ImportDecl.ofRestriction directive restriction).isRestricted = false ↔
      directive.node.attr "only" = .one .null ∨ directive.node.attr "only" = .many [] := by
  rw [ImportDecl.isRestricted, ImportDecl.ofRestriction]
  generalize directive.node.attr "only" = only at read ⊢
  by_cases chosen : (importSelector? only).isSome
  · have isText : only ≠ .one .null ∧ only ≠ .many [] := by
      constructor <;> rintro rfl <;> simp [importSelector?, Attribute.text?] at chosen
    simp [chosen, isText]
  · rw [if_neg chosen] at read
    rw [Option.not_isSome_iff_eq_none.mp chosen]
    match only with
    | .one .null =>
        cases read
        simp
    | .many entries =>
        obtain ⟨keys, keysRead, rfl⟩ := Outcome.map_eq_ok_iff.mp read
        have sameLength := (Outcome.mapM_eq_ok_iff.mp keysRead).length_eq
        cases keys with
        | nil => simp [List.eq_nil_of_length_eq_zero sameLength]
        | cons key others =>
            have isListed : entries ≠ [] := by
              rintro rfl
              cases sameLength
            simp [List.eraseDups_cons, isListed]
    | .one (.text _) | .one (.bool _) | .one (.int _) | .one (.float _) =>
        obtain ⟨key, -, rfl⟩ := Outcome.map_eq_ok_iff.mp read
        simp

theorem ofDirective_declares {decl : ImportDecl}
    (read : ImportDecl.ofDirective directive = .ok decl) :
    decl.path = directive.path ∧ decl.inFunction = directive.inFunction ∧
      decl.target = (directive.node.attr "module").plainText ∧
      decl.span = directive.node.span ∧
      (decl.isRestricted = false ↔
        directive.node.attr "only" = .one .null ∨ directive.node.attr "only" = .many []) := by
  rw [ofDirective_eq_map] at read
  obtain ⟨restriction, restricted, rfl⟩ := Outcome.map_eq_ok_iff.mp read
  exact ⟨rfl, rfl, rfl, rfl, isRestricted_ofRestriction restricted⟩

/-- What is found at places that are known from it keeps their order. -/
theorem sublist_of_filterMap {place item : Type} {find : place → Option item}
    {placeOf : item → place} (back : ∀ {given found}, find given = some found →
      placeOf found = given) (places : List place) :
    ((places.filterMap find).map placeOf).Sublist places := by
  induction places with
  | nil => exact List.Sublist.refl _
  | cons first rest inductionHypothesis =>
      rw [List.filterMap_cons]
      cases found : find first with
      | none => exact inductionHypothesis.cons first
      | some here =>
          rw [List.map_cons, back found]
          exact inductionHypothesis.cons_cons first

/-- The declarations of a scope are those of the module's own imports, in source order. -/
theorem declaresImports_of_ofModule {isNested : String → Bool} {scope : ModuleScope}
    (indexed : ModuleScope.ofModule isNested m = .ok scope) : scope.DeclaresImports m := by
  obtain ⟨isModule, functions, -, imports, read, rfl⟩ := ofModule_eq_ok_iff.mp indexed
  have pairs := Outcome.mapM_eq_ok_iff.mp read
  have atPath : ∀ {path directive}, m.ownDirective? path = some directive →
      directive.path = path := fun found => ((m.ownDirective?_eq_some_iff isModule).mp found).2.2.1
  -- What the walk lists is what is found at the paths of the module.
  have listed : ∀ directive, directive ∈ importsOf m ↔
      m.ownDirective? directive.path = some directive ∧
        directive.node.kind = .importDirective := by
    intro directive
    rw [importsOf, List.mem_filter, directivesAmong_eq_filterMap, List.mem_filterMap, beq_iff_eq]
    refine and_congr_left fun _ => ?_
    constructor
    · rintro ⟨path, -, found⟩
      rwa [atPath found]
    · intro found
      obtain ⟨own, -⟩ := (m.ownDirective?_eq_some_iff isModule).mp found
      exact ⟨_, Node.mem_positions_iff.mpr ⟨_, own.reached⟩, found⟩
  have samePaths : (importsOf m).map (·.path) = imports.map (·.path) := by
    rw [← List.forall₂_eq_eq_eq, List.forall₂_map_left_iff, List.forall₂_map_right_iff]
    exact pairs.imp fun _ _ here => (ofDirective_declares here).1.symm
  have order : (imports.map (·.path)).Sublist m.positions := by
    rw [← samePaths, importsOf, directivesAmong_eq_filterMap]
    exact (List.filter_sublist.map _).trans (sublist_of_filterMap atPath _)
  refine ⟨order, ?_, ?_⟩
  · intro decl member
    obtain ⟨directive, isListed, here⟩ := Outcome.exists_of_forall₂_of_mem_right pairs member
    obtain ⟨found, isImport⟩ := (listed directive).mp isListed
    rw [(ofDirective_declares here).1]
    exact ⟨_, ((m.ownDirective?_eq_some_iff isModule).mp found).1, isImport⟩
  · intro path n own isImport
    obtain ⟨flag, sameFlag⟩ : ∃ flag : Bool, flag = true ↔ m.InFunction path := by
      classical exact ⟨decide (m.InFunction path), decide_eq_true_iff⟩
    have found : m.ownDirective? path = some ⟨path, flag, n⟩ :=
      (m.ownDirective?_eq_some_iff isModule).mpr ⟨own, Or.inl isImport, rfl, sameFlag⟩
    obtain ⟨decl, member, here⟩ := Outcome.exists_of_forall₂_of_mem_left pairs
      ((listed ⟨path, flag, n⟩).mpr ⟨found, isImport⟩)
    obtain ⟨hasPath, hasFlag, hasTarget, hasSpan, restricted⟩ := ofDirective_declares here
    have single : imports.filter (·.path == path) = [decl] := by
      have alone := filter_key_eq ((m.nodup_positions).sublist order) member
      rw [hasPath] at alone
      exact alone
    have lookedUp : imports.find? (·.path == path) = some decl := by
      rw [← List.head?_filter, single, List.head?_cons]
    exact ⟨decl, single, lookedUp, hasTarget, hasSpan, by rw [hasFlag, sameFlag], restricted⟩

end StyleAudit
