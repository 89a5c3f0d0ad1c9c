import StyleAudit.Proofs.Audit.DispatchTable
import StyleAudit.Proofs.Audit.Walk
import StyleAudit.Proofs.Tree.Position

/-!
# The evaluation site by site

`Catalog.recordsAt` says what an evaluation reports about the node at a path,
from the modules around the node alone. `evaluate_eq_records_of_positions`: the
walk with a stack comes to the list of these answers in the order of the tree,
so that the records of a nested module are a block, found by evaluating the
module alone.

The recursion passes the module that it is in down the tree. `recordsBelow`
does the same for the answer at a path below a node, which is what the induction
on the tree is about.
-/

namespace StyleAudit.Catalog

variable {catalog : Catalog} {isNested : String → Bool} {context : Option ModuleContext}
  {start path way : NodePath} {position : Nat} {n m k child : Node} {found : List Violation}

/-- What the enabled rules that look at nodes of its kind find at a node of a
module, in catalog order. -/
def recordsIn (catalog : Catalog) (isNested : String → Bool) (m : Node) (site : Site) :
    List Violation :=
  match ModuleScope.ofModule isNested m with
  | .error _ => []
  | .ok scope =>
    catalog.rules.flatMap fun rule =>
      if site.node.kind ∈ rule.kinds then
        rule.check catalog.settings ⟨scope, CallGraph.ofScope scope⟩ site
      else []

/-- The record of a module that cannot be indexed, with the way from it. -/
def broken? (isNested : String → Bool) (place : Node × NodePath) :
    Option (Violation × NodePath) :=
  match ModuleScope.ofModule isNested place.1 with
  | .error (.confined fault) => some (fault.record place.1.name, place.2)
  | _ => none

/-- What is said about the node at a path. The outermost module that cannot be
indexed is reported itself and hides what is below it; elsewhere the rules look
at the node in the innermost module it stands in. -/
def recordsAt (catalog : Catalog) (isNested : String → Bool) (tree : Node) (path : NodePath) :
    List Violation :=
  match (tree.enclosing path).findSome? (broken? isNested) with
  | some (record, []) => [record]
  | some (_, _ :: _) => []
  | none =>
    match (tree.enclosing path).getLast?, tree.at? path with
    | some (m, way), some n => catalog.recordsIn isNested m ⟨way, n⟩
    | _, _ => []

/-! ## Going down -/

theorem recordsIn_of_scope {scope : ModuleScope} (site : Site)
    (indexed : ModuleScope.ofModule isNested m = .ok scope) :
    catalog.recordsIn isNested m site =
      catalog.check ⟨scope, CallGraph.ofScope scope⟩ site := by
  rw [recordsIn, indexed, check, rulesFor_eq_filter]
  simp only [List.contains_eq_mem]
  rw [flatMap_filter_eq]

theorem broken?_of_scope {scope : ModuleScope}
    (indexed : ModuleScope.ofModule isNested m = .ok scope) :
    broken? isNested (m, way) = none := by
  rw [broken?, indexed]

/-- What is said about the node at a path below a node that stands itself in a
module, at a path of it, if there is a context. -/
def recordsBelow (catalog : Catalog) (isNested : String → Bool) (context : Option ModuleContext)
    (start : NodePath) (n : Node) (path : NodePath) : List Violation :=
  match (n.enclosing path).findSome? (broken? isNested) with
  | some (record, []) => [record]
  | some (_, _ :: _) => []
  | none =>
    match (n.enclosing path).getLast?, n.at? path with
    | some (m, way), some k => catalog.recordsIn isNested m ⟨way, k⟩
    | none, some k => catalog.ownRecords ⟨start ++ path, k⟩ context
    | _, none => []

theorem recordsBelow_none (catalog : Catalog) (isNested : String → Bool) (n : Node)
    (path : NodePath) :
    catalog.recordsBelow isNested none [] n path = catalog.recordsAt isNested n path := by
  rw [recordsBelow, recordsAt]
  cases (n.enclosing path).getLast? <;> cases n.at? path <;> rfl

theorem recordsBelow_of_broken {fault : ModuleFault} (isModule : n.kind = .module)
    (broken : ModuleScope.ofModule isNested n = .error (.confined fault)) :
    catalog.recordsBelow isNested context start n path =
      if path = [] then [fault.record n.name] else [] := by
  have hides : ∀ way, broken? isNested (n, way) = some (fault.record n.name, way) := by
    intro way
    rw [broken?, broken]
  cases path with
  | nil => simp [recordsBelow, Node.enclosing, Node.asModule, isModule, hides]
  | cons position way =>
      simp [recordsBelow, Node.enclosing, Node.asModule, isModule, hides]

theorem recordsBelow_of_scope {scope : ModuleScope} (isModule : n.kind = .module)
    (indexed : ModuleScope.ofModule isNested n = .ok scope) :
    catalog.recordsBelow isNested context start n [] =
      catalog.check ⟨scope, CallGraph.ofScope scope⟩ ⟨[], n⟩ := by
  simp [recordsBelow, Node.enclosing, Node.asModule, isModule, broken?_of_scope indexed,
    recordsIn_of_scope _ indexed]

/-- Below a module that can be indexed the records are those of the module's own
scope, which replaces the one around it. -/
theorem recordsBelow_cons_of_scope {scope : ModuleScope} (isModule : n.kind = .module)
    (indexed : ModuleScope.ofModule isNested n = .ok scope)
    (childFound : n.children[position]? = some child) :
    catalog.recordsBelow isNested context start n (position :: way) =
      catalog.recordsBelow isNested (some ⟨scope, CallGraph.ofScope scope⟩) [position] child
        way := by
  rw [recordsBelow, recordsBelow, Node.enclosing_cons childFound, Node.at?_cons childFound,
    Node.asModule, if_pos isModule, List.singleton_append,
    List.findSome?_cons_of_isNone (by simp [broken?_of_scope indexed])]
  cases (child.enclosing way).findSome? (broken? isNested) with
  | some hidden =>
      obtain ⟨record, remaining⟩ := hidden
      cases remaining <;> rfl
  | none =>
      rw [List.getLast?_cons]
      cases child.at? way with
      | none => cases (child.enclosing way).getLast? <;> rfl
      | some k =>
          cases (child.enclosing way).getLast? with
          | none => exact recordsIn_of_scope _ indexed
          | some place => rfl

theorem recordsBelow_of_not_module (noModule : n.kind ≠ .module) :
    catalog.recordsBelow isNested context start n [] =
      catalog.ownRecords ⟨start, n⟩ context := by
  simp [recordsBelow, Node.enclosing, Node.asModule, noModule]

theorem recordsBelow_cons_of_not_module (noModule : n.kind ≠ .module)
    (childFound : n.children[position]? = some child) :
    catalog.recordsBelow isNested context start n (position :: way) =
      catalog.recordsBelow isNested context (start ++ [position]) child way := by
  rw [recordsBelow, recordsBelow, Node.enclosing_cons childFound, Node.at?_cons childFound,
    Node.asModule, if_neg noModule, List.nil_append, List.append_assoc, List.singleton_append]

/-! ## The whole walk -/

theorem evaluateAll_eq_flatMap {plain : Node × Nat → List Violation} {ns : List Node}
    (returned : catalog.evaluateAll isNested context path position ns = .ok found)
    (each : ∀ indexed ∈ ns.zipIdx position, ∀ part,
      catalog.evaluateNode isNested context (path ++ [indexed.2]) indexed.1 = .ok part →
        part = plain indexed) :
    found = (ns.zipIdx position).flatMap plain := by
  induction ns generalizing position found with
  | nil =>
      cases returned
      rfl
  | cons first rest inductionHypothesis =>
      rw [evaluateAll] at returned
      obtain ⟨here, firstFound, finished⟩ := Outcome.bind_eq_ok_iff.mp returned
      obtain ⟨others, restFound, same⟩ := Outcome.bind_eq_ok_iff.mp finished
      cases same
      have herePlain : here = plain (first, position) :=
        each (first, position) List.mem_cons_self here firstFound
      have othersPlain := inductionHypothesis restFound fun indexed member =>
        each indexed (List.mem_cons_of_mem _ member)
      rw [List.zipIdx_cons, List.flatMap_cons, herePlain, othersPlain]

theorem flatMap_positions {records : Type} (n : Node) (say : NodePath → List records) :
    n.positions.flatMap say =
      say [] ++ n.children.zipIdx.flatMap fun indexed =>
        indexed.1.positions.flatMap fun way => say (indexed.2 :: way) := by
  rw [Node.positions_eq, List.flatMap_cons, List.flatMap_assoc]
  simp only [Node.positionsOf, List.flatMap_map]

/-- The walk of a node finds what is said about the nodes below it one by
one. -/
theorem evaluateNode_eq_flatMap
    (returned : catalog.evaluateNode isNested context start n = .ok found) :
    found = n.positions.flatMap (catalog.recordsBelow isNested context start n) := by
  induction n using Node.childInduction generalizing context start found with
  | step n inductionHypothesis =>
      have below : ∀ inner path part,
          catalog.evaluateAll isNested inner path 0 n.children = .ok part →
          (∀ position child way, n.children[position]? = some child →
            catalog.recordsBelow isNested context start n (position :: way) =
              catalog.recordsBelow isNested inner (path ++ [position]) child way) →
          part = n.children.zipIdx.flatMap fun indexed =>
            indexed.1.positions.flatMap fun way =>
              catalog.recordsBelow isNested context start n (indexed.2 :: way) := by
        intro inner path part partFound step
        refine evaluateAll_eq_flatMap partFound ?_
        intro indexed member part childReturned
        have childFound : n.children[indexed.2]? = some indexed.1 :=
          List.mem_zipIdx_iff_getElem?.mp member
        rw [inductionHypothesis indexed.1 (List.mem_of_getElem? childFound) childReturned]
        exact List.flatMap_congr fun way _ => (step _ _ way childFound).symm
      rw [flatMap_positions]
      rcases evaluateNode_eq_ok_iff.mp returned with ⟨isModule, fault, broken, rfl⟩ |
        ⟨isModule, scope, part, indexed, partFound, rfl⟩ | ⟨noModule, part, partFound, rfl⟩
      · simp [recordsBelow_of_broken isModule broken]
      · rw [recordsBelow_of_scope isModule indexed, below _ _ _ partFound]
        intro position child way childFound
        exact recordsBelow_cons_of_scope isModule indexed childFound
      · rw [recordsBelow_of_not_module noModule, below _ _ _ partFound]
        intro position child way childFound
        exact recordsBelow_cons_of_not_module noModule childFound

/-! ## Nested modules -/

theorem recordsBelow_of_module (isModule : m.kind = .module) :
    catalog.recordsBelow isNested context start m path = catalog.recordsAt isNested m path := by
  rw [recordsBelow, recordsAt]
  cases path with
  | nil => simp [Node.enclosing, Node.asModule, isModule]
  | cons position way =>
      rw [Node.enclosing, Node.asModule, if_pos isModule, List.singleton_append, List.getLast?_cons]
      cases m.at? (position :: way) <;> rfl

/-- The modules around a node other than itself can be indexed. -/
def LiesOpen (isNested : String → Bool) (tree : Node) (path : NodePath) : Prop :=
  ∀ m way, (m, way) ∈ tree.enclosing path → way ≠ [] →
    ∃ scope, ModuleScope.ofModule isNested m = .ok scope

/-- A position lies open exactly when the evaluation goes below its root and the rest
of the way lies open there. -/
theorem liesOpen_cons (childFound : n.children[position]? = some child) :
    LiesOpen isNested n (position :: way) ↔
      GoesBelow isNested n ∧ LiesOpen isNested child way := by
  constructor
  · intro liesOpen
    constructor
    · intro isModule
      have enclosed : (n, position :: way) ∈ n.enclosing (position :: way) :=
        Node.mem_enclosing_iff.mpr ⟨isModule, [], rfl, rfl⟩
      exact liesOpen n (position :: way) enclosed (List.cons_ne_nil position way)
    · intro m rest enclosed remains
      have outerEnclosed : (m, rest) ∈ n.enclosing (position :: way) := by
        rw [Node.enclosing_cons childFound]
        exact List.mem_append_right _ enclosed
      exact liesOpen m rest outerEnclosed remains
  · intro both m rest enclosed remains
    rcases both with ⟨passable, childOpen⟩
    rw [Node.enclosing_cons childFound] at enclosed
    rcases List.mem_append.mp enclosed with here | below
    · obtain ⟨isModule, rfl, _⟩ := Node.mem_asModule_iff.mp here
      exact passable isModule
    · exact childOpen m rest below remains

theorem Enters.of_liesOpen (reached : n.at? path = some m) (liesOpen : LiesOpen isNested n path)
    (entered : Enters isNested m k) : Enters isNested n k := by
  induction path generalizing n with
  | nil =>
      cases reached
      exact entered
  | cons position way inductionHypothesis =>
      obtain ⟨child, childFound, below⟩ := Node.at?_cons_eq_some_iff.mp reached
      obtain ⟨passable, childOpen⟩ := (liesOpen_cons childFound).mp liesOpen
      exact Enters.descend passable (List.mem_of_getElem? childFound)
        (inductionHypothesis below childOpen)

/-- The records below a module that is reached are those of the module on its own,
whatever is around it. -/
theorem recordsBelow_append (reached : n.at? path = some m) (isModule : m.kind = .module)
    (liesOpen : LiesOpen isNested n path) :
    catalog.recordsBelow isNested context start n (path ++ way) =
      catalog.recordsAt isNested m way := by
  induction path generalizing n context start with
  | nil =>
      cases reached
      exact recordsBelow_of_module isModule
  | cons position rest inductionHypothesis =>
      obtain ⟨child, childFound, below⟩ := Node.at?_cons_eq_some_iff.mp reached
      obtain ⟨passable, childOpen⟩ := (liesOpen_cons childFound).mp liesOpen
      rw [List.cons_append]
      by_cases outerModule : n.kind = .module
      · obtain ⟨scope, indexed⟩ := passable outerModule
        rw [recordsBelow_cons_of_scope outerModule indexed childFound]
        exact inductionHypothesis below childOpen
      · rw [recordsBelow_cons_of_not_module outerModule childFound]
        exact inductionHypothesis below childOpen

/-- The records of a tree are those of its positions, in the order of the positions. -/
theorem eq_flatMap_of_evaluate (returned : catalog.evaluate isNested n = .ok found) :
    found = n.positions.flatMap (catalog.recordsAt isNested n) := by
  have fromOutside : catalog.recordsBelow isNested none [] n = catalog.recordsAt isNested n :=
    funext (recordsBelow_none catalog isNested n)
  rw [evaluate_eq_evaluateNode] at returned
  rw [evaluateNode_eq_flatMap returned, fromOutside]

theorem evaluate_eq_flatMap
    (readable : ∀ m, Enters isNested n m →
      ∀ fault, ModuleScope.ofModule isNested m ≠ .error (.arity fault)) :
    catalog.evaluate isNested n = .ok (n.positions.flatMap (catalog.recordsAt isNested n)) := by
  obtain ⟨found, returned⟩ := evaluate_returns_iff.mpr readable
  rw [returned, eq_flatMap_of_evaluate returned]

/-- The walk with a stack finds what the recursion on the tree finds, and says in
the order of the tree what is to be said about each node. The records of a
nested module that no broken one hides are a block, the same as if the module
were evaluated alone. -/
theorem evaluate_eq_records_of_positions (catalog : Catalog) (isNested : String → Bool)
    (tree : Node)
    (readable : ∀ m, Enters isNested tree m →
      ∀ fault, ModuleScope.ofModule isNested m ≠ .error (.arity fault)) :
    catalog.evaluate isNested tree = catalog.evaluateNode isNested none [] tree ∧
      catalog.evaluate isNested tree =
        .ok (tree.positions.flatMap (catalog.recordsAt isNested tree)) ∧
      ∀ path m, tree.at? path = some m → m.kind = .module → LiesOpen isNested tree path →
        ∃ before after,
          tree.positions = before ++ m.positions.map (path ++ ·) ++ after ∧
          (∀ other ∈ before ++ after, ¬ path <+: other) ∧
          catalog.evaluate isNested m =
            .ok ((m.positions.map (path ++ ·)).flatMap (catalog.recordsAt isNested tree)) := by
  refine ⟨evaluate_eq_evaluateNode catalog isNested tree, evaluate_eq_flatMap readable, ?_⟩
  intro path m reached isModule liesOpen
  obtain ⟨before, after, apart, split⟩ := Node.exists_positions_replaceAt reached
  have block := split m
  rw [Node.replaceAt_self reached] at block
  have sameRecords : ∀ way, catalog.recordsAt isNested tree (path ++ way) =
      catalog.recordsAt isNested m way := by
    intro way
    rw [← recordsBelow_none]
    exact recordsBelow_append reached isModule liesOpen
  have nestedReadable : ∀ k, Enters isNested m k →
      ∀ fault, ModuleScope.ofModule isNested k ≠ .error (.arity fault) :=
    fun k entered => readable k (entered.of_liesOpen reached liesOpen)
  refine ⟨before, after, block, apart, ?_⟩
  rw [evaluate_eq_flatMap nestedReadable, List.flatMap_map]
  simp only [sameRecords]

/-- A node that covers the first column of a line. -/
def nodeOnLine (kind : Kind) (line : Nat) (attributes : Attributes) (children : List Node) : Node :=
  ⟨kind, ⟨"lib/a.ex", ⟨line, 1, line, 1⟩⟩, attributes, children⟩

/-- A module that imports another one. -/
def importerOnLine (name : String) (line : Nat) : Node :=
  nodeOnLine .module line [("name", .one (.text name))]
    [nodeOnLine .importDirective (line + 1) [("module", .one (.text "B"))] []]

/-- A module that imports a module by an entry that names no arity. -/
def brokenOnLine (name : String) (line : Nat) : Node :=
  nodeOnLine .module line [("name", .one (.text name))]
    [nodeOnLine .importDirective (line + 1)
      [("module", .one (.text "B")), ("only", .one (.text "all"))] [importerOnLine "A.H" line]]

/-- A module with two nested ones, the first of which cannot be indexed. -/
def nestedImporters : Node :=
  nodeOnLine .module 1 [("name", .one (.text "A"))]
    [brokenOnLine "A.X" 2, importerOnLine "A.Y" 5]

/-- Imports are all that is looked at. -/
def importsOnly : Catalog :=
  ⟨[.importScope], ⟨[], [], "", "", []⟩⟩

/-- The record about an import at module level. -/
def importOnLine (line : Nat) : Violation :=
  ⟨"import-scope", ⟨"lib/a.ex", ⟨line, 1, line, 1⟩⟩,
    "import B at module level; move it into the function that uses it.", .violation⟩

theorem evaluate_eq_records_of_nestedImporters :
    ∃ broken,
      importsOnly.evaluate (fun _ => false) nestedImporters = .ok [broken, importOnLine 6] ∧
      nestedImporters.positions.flatMap
          (importsOnly.recordsAt (fun _ => false) nestedImporters) = [broken, importOnLine 6] ∧
      importsOnly.evaluate (fun _ => false) (importerOnLine "A.Y" 5) = .ok [importOnLine 6] ∧
      broken.message = "A.X: import only entry 'all' is not name/arity" := by
  have returned : importsOnly.evaluate (fun _ => false) nestedImporters =
      .ok [.engineError "A.X: import only entry 'all' is not name/arity"
        ⟨"lib/a.ex", ⟨3, 1, 3, 1⟩⟩, importOnLine 6] := by
    decide +kernel
  obtain ⟨_, whole, nested⟩ := evaluate_eq_records_of_positions importsOnly (fun _ => false)
    nestedImporters (evaluate_returns_iff.mp ⟨_, returned⟩)
  have liesOpen : LiesOpen (fun _ => false) nestedImporters [1] := by
    intro m way enclosed remains
    simp [nestedImporters, importerOnLine, nodeOnLine, Node.enclosing, Node.asModule] at enclosed
    rcases enclosed with ⟨rfl, _⟩ | ⟨_, rfl⟩
    · exact ⟨_, rfl⟩
    · exact absurd rfl remains
  obtain ⟨before, after, _, _, alone⟩ := nested [1] (importerOnLine "A.Y" 5) rfl rfl liesOpen
  have block : ((importerOnLine "A.Y" 5).positions.map ([1] ++ ·)).flatMap
      (importsOnly.recordsAt (fun _ => false) nestedImporters) = [importOnLine 6] := by
    decide +kernel
  rw [block] at alone
  rw [returned] at whole
  exact ⟨_, returned, (Except.ok.inj whole).symm, alone, rfl⟩

end StyleAudit.Catalog
