import StyleAudit.Proofs.Nesting.Findings

/-!
# Nested modules are separate

What stands in a nested module does not change what is said about the nodes
around it, wherever the module stands, with two exceptions.

* Some children are read as a whole, modules below them included
  (`Node.readWhole`). `StandsFreely` says that the module stands below none of
  them.
* A caller that branches on a generic error forgives it, and such branches are
  looked for in nested modules of its body as well.

`records_outside_nested_module` is the statement with both exceptions left out,
and `records_outside_differ_by_nested_branch` an instance of the second one.
-/

namespace StyleAudit

open ErrorLocality (branchesAt branchesOn isGenericError)

variable {n m m' tree child : Node} {path way : NodePath} {position : Nat}

/-! ## A module at a path -/

/-- No node above the one at a path reads the child on the way to it as a
whole. -/
def StandsFreely (tree : Node) (path : NodePath) : Prop :=
  ∀ before position rest n, path = before ++ position :: rest → tree.at? before = some n →
    n.readWhole ≤ position

/-- The path leads through the body of a function of a module. -/
def InFunctionBody (tree : Node) (path : NodePath) : Prop :=
  ∃ before position rest outer form, path = before ++ position :: 1 :: rest ∧
    tree.at? before = some outer ∧ outer.kind = .module ∧
    outer.children[position]? = some form ∧ form.kind = .function

theorem standsFreely_nil (tree : Node) : StandsFreely tree [] := by
  intro before position rest n split
  cases before <;> cases split

/-- A position stands freely if each step on the way leads past the children read as
a whole. -/
theorem standsFreely_cons_iff (found : n.children[position]? = some child) :
    StandsFreely n (position :: way) ↔ n.readWhole ≤ position ∧ StandsFreely child way := by
  constructor
  · intro free
    refine ⟨free [] position way n rfl rfl, ?_⟩
    intro before other rest k split reached
    refine free (position :: before) other rest k (by rw [split]; rfl) ?_
    rw [Node.at?_cons found, reached]
  · rintro ⟨here, below⟩ before other rest k split reached
    cases before with
    | nil =>
        cases split
        cases reached
        exact here
    | cons first before =>
        obtain ⟨rfl, later⟩ := List.cons.inj split
        rw [Node.at?_cons found] at reached
        exact below before other rest k later reached

theorem InFunctionBody.above (found : n.children[position]? = some child)
    (inBody : InFunctionBody child way) : InFunctionBody n (position :: way) := by
  obtain ⟨before, other, rest, outer, form, split, reached, isModule, isForm, isFunction⟩ := inBody
  refine ⟨position :: before, other, rest, outer, form, by rw [split]; rfl, ?_, isModule, isForm,
    isFunction⟩
  rw [Node.at?_cons found, reached]

/-! ## Replacing a module -/

theorem map_modify {value : Type} {f : Node → value} {ns : List Node} (change : Node → Node)
    (found : ns[position]? = some child) (same : f (change child) = f child) :
    (ns.modify position change).map f = ns.map f := by
  induction ns generalizing position with
  | nil => cases found
  | cons n rest inductionHypothesis =>
      cases position with
      | zero =>
          cases found
          simp [same]
      | succ position => simp [inductionHypothesis found]

theorem emptiedAfter_modify {ns : List Node} {kept : Nat} {change : Node → Node}
    (found : ns[position]? = some child) (free : kept ≤ position)
    (same : (change child).emptied = child.emptied) :
    Node.emptiedAfter kept (ns.modify position change) = Node.emptiedAfter kept ns := by
  induction ns generalizing kept position with
  | nil => cases found
  | cons n rest inductionHypothesis =>
      cases kept with
      | zero =>
          rw [Node.emptiedAfter_zero, Node.emptiedAfter_zero]
          exact map_modify change found same
      | succ kept =>
          cases position with
          | zero => cases free
          | succ position =>
              rw [List.modify_succ_cons, Node.emptiedAfter_succ, Node.emptiedAfter_succ,
                inductionHypothesis found (Nat.le_of_succ_le_succ free)]

theorem readWhole_modify (change : Node → Node) (free : n.readWhole ≤ position) :
    Node.readWhole { n with children := n.children.modify position change } = n.readWhole := by
  obtain ⟨kind, span, attributes, children⟩ := n
  cases kind with
  | branch =>
      obtain ⟨later, rfl⟩ : ∃ later, position = later + 1 :=
        Nat.exists_eq_add_one.mpr (Nat.lt_of_lt_of_le (Node.readWhole_pos_of_branch rfl) free)
      have sameFirst : (children.modify (later + 1) change).head? = children.head? := by
        cases children <;> rfl
      simp [Node.readWhole, sameFirst]
  | atom => simp [Node.readWhole]
  | _ => rfl

theorem emptied_modify {change : Node → Node} (found : n.children[position]? = some child)
    (free : n.readWhole ≤ position) (same : (change child).emptied = child.emptied) :
    Node.emptied { n with children := n.children.modify position change } = n.emptied := by
  refine Node.ext_of_parts (by simp) (by simp) (by simp) ?_
  by_cases isModule : n.kind = .module
  · rw [Node.children_emptied_of_module isModule]
    exact Node.children_emptied_of_module isModule
  · rw [Node.children_emptied isModule, ← emptiedAfter_modify found free same,
      ← readWhole_modify change free]
    exact Node.children_emptied isModule

/-- A tree is the same when emptied, whatever a module in it holds. -/
theorem emptied_replaceAt (reached : n.at? path = some m) (free : StandsFreely n path)
    (same : m'.emptied = m.emptied) : (n.replaceAt path m').emptied = n.emptied := by
  induction path generalizing n with
  | nil =>
      cases reached
      exact same
  | cons position way inductionHypothesis =>
      obtain ⟨child, found, below⟩ := Node.at?_cons_eq_some_iff.mp reached
      obtain ⟨here, childFree⟩ := (standsFreely_cons_iff found).mp free
      exact emptied_modify found here (inductionHypothesis below childFree)

theorem branchesOn_eq (error n : Node) :
    branchesOn error n =
      ((n.kind == .branch &&
        n.branchParts?.any fun (pattern, _) => pattern.reduced.structurallyEqual error) ||
      n.children.any (branchesOn error)) := by
  rw [branchesOn, Node.preorder_eq, List.any_cons, List.any_flatMap]
  rfl

/-- A branch matches on the same pattern when a later part of it is changed. -/
theorem pattern_modify (change : Node → Node) (test : Node → Bool) (later : 0 < position) :
    ((Node.branchParts? { n with children := n.children.modify position change }).any
        fun (pattern, _) => test pattern) =
      n.branchParts?.any fun (pattern, _) => test pattern := by
  obtain ⟨kind, span, attributes, children⟩ := n
  obtain ⟨position, rfl⟩ := Nat.exists_eq_add_one.mpr later
  match children with
  | [] => rfl
  | [_] => cases position <;> rfl
  | _ :: _ :: _ => cases position <;> rfl

/-- When a part that stands freely is replaced by one that branches alike, the whole
branches as before. -/
theorem branchesOn_replaceAt {error : Node} (reached : n.at? path = some m)
    (free : StandsFreely n path) (same : branchesOn error m' = branchesOn error m) :
    branchesOn error (n.replaceAt path m') = branchesOn error n := by
  induction path generalizing n with
  | nil =>
      cases reached
      exact same
  | cons position way inductionHypothesis =>
      obtain ⟨child, found, below⟩ := Node.at?_cons_eq_some_iff.mp reached
      obtain ⟨here, childFree⟩ := (standsFreely_cons_iff found).mp free
      have childSame : branchesOn error (child.replaceAt way m') = branchesOn error child :=
        inductionHypothesis below childFree
      have inChildren : (n.children.modify position fun other => other.replaceAt way m').any
            (branchesOn error) = n.children.any (branchesOn error) := by
        have mapped := congrArg (List.any · id)
          (map_modify (f := branchesOn error) (fun other => other.replaceAt way m') found childSame)
        simpa [List.any_map] using mapped
      rw [branchesOn_eq, branchesOn_eq error n, Node.replaceAt, inChildren]
      by_cases isBranch : n.kind = .branch
      · have samePattern := pattern_modify (n := n) (fun other => other.replaceAt way m')
          (fun pattern => pattern.reduced.structurallyEqual error)
          (Nat.lt_of_lt_of_le (Node.readWhole_pos_of_branch isBranch) here)
        rw [samePattern]
      · simp [beq_eq_false_iff_ne.mpr isBranch]

/-! ## Around a module -/

/-- A module at a path and another one that can take its place: the modules hold
different forms, and nobody looks at those from outside. -/
structure StandsApart (tree : Node) (path : NodePath) (m m' : Node) : Prop where
  reached : tree.at? path = some m
  isModule : m.kind = .module
  sameHead : m.emptied = m'.emptied
  free : StandsFreely tree path
  branching : InFunctionBody tree path → ∀ error, isGenericError error = true →
    branchesOn error m = branchesOn error m'

namespace StandsApart

theorem isModule' (apart : StandsApart tree path m m') : m'.kind = .module :=
  (Node.kind_eq_of_emptied_eq apart.sameHead).symm.trans apart.isModule

theorem exists_child (apart : StandsApart n (position :: way) m m') :
    ∃ child, n.children[position]? = some child ∧ StandsApart child way m m' := by
  obtain ⟨child, found, below⟩ := Node.at?_cons_eq_some_iff.mp apart.reached
  obtain ⟨_, childFree⟩ := (standsFreely_cons_iff found).mp apart.free
  exact ⟨child, found, below, apart.isModule, apart.sameHead, childFree,
    fun inBody => apart.branching (inBody.above found)⟩

theorem emptied_eq (apart : StandsApart n path m m') : n.emptied = (n.replaceAt path m').emptied :=
  (emptied_replaceAt apart.reached apart.free apart.sameHead.symm).symm

/-- Replacing a nested module that stands apart leaves the branches of all clauses as
they are. -/
theorem branchesAt_eq {error : Node} (apart : StandsApart n (position :: way) m m')
    (isOuter : n.kind = .module) (generic : isGenericError error = true) (place : Nat) :
    branchesAt n place error = branchesAt (n.replaceAt (position :: way) m') place error := by
  obtain ⟨child, found, below⟩ := apart.exists_child
  rw [branchesAt, branchesAt, Node.replaceAt, List.getElem?_modify]
  by_cases here : position = place
  · subst here
    simp only [found, Option.map_eq_map, Option.map_some, Option.any_some, if_true]
    cases way with
    | nil =>
        -- The module is itself a form, and no function.
        cases below.reached
        have noFunction : (Kind.module == Kind.function) = false := rfl
        simp [Node.replaceAt, apart.isModule, apart.isModule', noFunction]
    | cons next rest =>
        simp only [Node.replaceAt, List.getElem?_modify]
        by_cases isFunction : child.kind = .function
        · by_cases inBody : next = 1
          · subst inBody
            obtain ⟨body, isBody, inside⟩ := below.exists_child
            have sameBranches : branchesOn error m' = branchesOn error m :=
              (apart.branching ⟨[], position, rest, n, child, rfl, rfl, isOuter, found, isFunction⟩
                error generic).symm
            simp [isBody, branchesOn_replaceAt inside.reached inside.free sameBranches]
          · simp [inBody]
        · simp [beq_eq_false_iff_ne.mpr isFunction]
  · simp [here]

/-- The modules around the replaced one differ inside of it only. -/
theorem sameOutside (apart : StandsApart n (position :: way) m m') (isOuter : n.kind = .module) :
    SameOutside n (n.replaceAt (position :: way) m') where
  emptied := by
    obtain ⟨child, found, below⟩ := apart.exists_child
    have sameChildren := map_modify (fun other => other.replaceAt way m') found
      below.emptied_eq.symm
    simp only [Node.emptiedBelow, Node.replaceAt, sameChildren]
  branching := fun place _ generic => apart.branchesAt_eq isOuter generic place

theorem not_prefix_below {rest : NodePath} (outside : ¬ position :: way <+: position :: rest) :
    ¬ way <+: rest :=
  fun inside => outside (List.cons_prefix_cons.mpr ⟨rfl, inside⟩)

/-- The nodes outside of the module are the same when emptied. -/
theorem at?_eq {other : NodePath} (apart : StandsApart n path m m') (outside : ¬ path <+: other) :
    (n.at? other).map Node.emptied = ((n.replaceAt path m').at? other).map Node.emptied := by
  induction path generalizing n other with
  | nil => exact absurd List.nil_prefix outside
  | cons position way inductionHypothesis =>
      -- The path ends above the module, leads towards it or turns away from it.
      cases other with
      | nil => exact congrArg some apart.emptied_eq
      | cons next rest =>
          obtain ⟨child, found, below⟩ := apart.exists_child
          rw [Node.at?, Node.at?, Node.replaceAt, List.getElem?_modify]
          by_cases here : position = next
          · subst here
            simpa [found] using inductionHypothesis below (not_prefix_below outside)
          · simp [here]

/-- Places in modules that differ inside of nested ones. -/
def SamePlace (place place' : Node × NodePath) : Prop :=
  place.2 = place'.2 ∧ SameOutside place.1 place'.1

theorem samePlace_asModule (apart : StandsApart n (position :: way) m m') (other : NodePath) :
    List.Forall₂ SamePlace (n.asModule other)
      ((n.replaceAt (position :: way) m').asModule other) := by
  have sameKind : (n.replaceAt (position :: way) m').kind = n.kind := rfl
  rw [Node.asModule, Node.asModule, sameKind]
  split
  · rename_i isOuter
    exact List.Forall₂.cons ⟨rfl, apart.sameOutside isOuter⟩ List.Forall₂.nil
  · exact List.Forall₂.nil

/-- The modules around a node outside of the replaced one differ inside of it
only. -/
theorem enclosing_samePlace {other : NodePath} (apart : StandsApart n path m m')
    (outside : ¬ path <+: other) :
    List.Forall₂ SamePlace (n.enclosing other) ((n.replaceAt path m').enclosing other) := by
  induction path generalizing n other with
  | nil => exact absurd List.nil_prefix outside
  | cons position way inductionHypothesis =>
      cases other with
      | nil => exact samePlace_asModule apart []
      | cons next rest =>
          refine List.rel_append (samePlace_asModule apart (next :: rest)) ?_
          obtain ⟨child, found, below⟩ := apart.exists_child
          rw [Node.replaceAt, List.getElem?_modify]
          by_cases here : position = next
          · subst here
            simpa [found] using inductionHypothesis below (not_prefix_below outside)
          · have refl : ∀ places, List.Forall₂ SamePlace places places :=
              fun places => List.forall₂_same.mpr fun place _ => ⟨rfl, SameOutside.refl place.1⟩
            simpa [here] using refl _

end StandsApart

/-! ## Records around a module -/

theorem SameOutside.broken?_eq {isNested : String → Bool} {k k' : Node} (same : SameOutside k k')
    (way : NodePath) : Catalog.broken? isNested (k, way) = Catalog.broken? isNested (k', way) := by
  have sameName : k.name = k'.name := by
    change k.emptiedBelow.name = k'.emptiedBelow.name
    rw [same.emptied]
  rw [Catalog.broken?, Catalog.broken?]
  cases indexed : ModuleScope.ofModule isNested k with
  | error fault =>
      rw [(same.error_iff isNested fault).mp indexed]
      cases fault with
      | confined fault => simp only [sameName]
      | arity fault => rfl
  | ok scope =>
      cases indexed' : ModuleScope.ofModule isNested k' with
      | error fault =>
          rw [(same.error_iff isNested fault).mpr indexed'] at indexed
          cases indexed
      | ok scope' => rfl

theorem findSome?_broken?_eq {isNested : String → Bool} {places places' : List (Node × NodePath)}
    (pairs : List.Forall₂ StandsApart.SamePlace places places') :
    places.findSome? (Catalog.broken? isNested) = places'.findSome? (Catalog.broken? isNested) := by
  induction pairs with
  | nil => rfl
  | @cons place place' _ _ same _ inductionHypothesis =>
      obtain ⟨k, way⟩ := place
      obtain ⟨k', way'⟩ := place'
      obtain ⟨rfl, sameModule⟩ := same
      rw [List.findSome?_cons, List.findSome?_cons, sameModule.broken?_eq, inductionHypothesis]

theorem getLast?_of_forall₂ {first second : Type} {relation : first → second → Prop}
    {left : List first} {right : List second} (pairs : List.Forall₂ relation left right) :
    left.getLast? = none ∧ right.getLast? = none ∨
      ∃ x y, left.getLast? = some x ∧ right.getLast? = some y ∧ relation x y := by
  have backwards := List.forall₂_reverse_iff.mpr pairs
  rw [List.getLast?_eq_head?_reverse, List.getLast?_eq_head?_reverse]
  generalize left.reverse = left' at backwards
  generalize right.reverse = right' at backwards
  cases backwards with
  | nil => exact Or.inl ⟨rfl, rfl⟩
  | cons related _ => exact Or.inr ⟨_, _, rfl, rfl, related⟩

theorem Node.IsWellShaped.of_enclosing {places : List (Node × NodePath)} {place : Node × NodePath}
    (shaped : n.IsWellShaped) (enclosed : n.enclosing path = places)
    (last : places.getLast? = some place) : place.1.IsWellShaped := by
  have member : (place.1, place.2) ∈ n.enclosing path := enclosed ▸ List.mem_of_getLast? last
  obtain ⟨_, _, _, reached⟩ := Node.mem_enclosing_iff.mp member
  exact shaped.of_at? reached

/-- What is said about a node outside of a module does not depend on what the
module holds. -/
theorem StandsApart.recordsAt_eq {other : NodePath} (catalog : Catalog) (isNested : String → Bool)
    (apart : StandsApart tree path m m') (shaped : tree.IsWellShaped)
    (otherShaped : (tree.replaceAt path m').IsWellShaped) (outside : ¬ path <+: other) :
    catalog.recordsAt isNested tree other =
      catalog.recordsAt isNested (tree.replaceAt path m') other := by
  have pairs := apart.enclosing_samePlace outside
  have sameNode := apart.at?_eq outside
  rw [Catalog.recordsAt, Catalog.recordsAt, findSome?_broken?_eq pairs]
  cases ((tree.replaceAt path m').enclosing other).findSome? (Catalog.broken? isNested) with
  | some hidden =>
      obtain ⟨record, remaining⟩ := hidden
      cases remaining <;> rfl
  | none =>
      rcases getLast?_of_forall₂ pairs with ⟨noModule, noModule'⟩ |
        ⟨place, place', last, last', sameWay, sameModule⟩
      · rw [noModule, noModule']
      · have moduleShaped := shaped.of_enclosing rfl last
        have moduleShaped' := otherShaped.of_enclosing rfl last'
        rw [last, last']
        cases found : tree.at? other with
        | none =>
            rw [found, Option.map_none, eq_comm, Option.map_eq_none_iff] at sameNode
            rw [sameNode]
        | some k =>
            rw [found, Option.map_some, eq_comm, Option.map_eq_some_iff] at sameNode
            obtain ⟨k', found', same⟩ := sameNode
            rw [found']
            obtain ⟨outer, way⟩ := place
            obtain ⟨outer', way'⟩ := place'
            cases sameWay
            exact recordsIn_eq_of_sameOutside catalog sameModule moduleShaped moduleShaped'
              (shaped.of_at? found) (otherShaped.of_at? found') same.symm

theorem evaluate_eq_split {catalog : Catalog} {isNested : String → Bool} {found : List Violation}
    {before after : List NodePath}
    (split : tree.positions = before ++ m.positions.map (path ++ ·) ++ after)
    (returned : catalog.evaluate isNested tree = .ok found) :
    found = before.flatMap (catalog.recordsAt isNested tree) ++
      (m.positions.map (path ++ ·)).flatMap (catalog.recordsAt isNested tree) ++
      after.flatMap (catalog.recordsAt isNested tree) := by
  rw [Catalog.eq_flatMap_of_evaluate returned, split, List.flatMap_append, List.flatMap_append]

/-- Two trees whose nodes have the shape of their kinds, the same up to the
children of one module, get the same records about all nodes outside of that
module, in front of and behind those about the module and what is below it. The
module stands below no child that is read as a whole, and where it lies in the
body of a function it holds branches on the same generic errors in both. -/
theorem records_outside_nested_module (catalog : Catalog) (isNested : String → Bool)
    {children : List Node} (shaped : tree.IsWellShaped)
    (otherShaped : (tree.replaceAt path { m with children := children }).IsWellShaped)
    (reached : tree.at? path = some m) (isModule : m.kind = .module)
    (free : StandsFreely tree path)
    (branching : InFunctionBody tree path → ∀ error, isGenericError error = true →
      branchesOn error m = branchesOn error { m with children := children }) :
    (∀ outside, ¬ path <+: outside →
      catalog.recordsAt isNested tree outside =
        catalog.recordsAt isNested (tree.replaceAt path { m with children := children }) outside) ∧
      ∃ before after : List Violation,
        (∀ found, catalog.evaluate isNested tree = .ok found →
          found = before ++
            (m.positions.map (path ++ ·)).flatMap (catalog.recordsAt isNested tree) ++ after) ∧
        ∀ found,
          catalog.evaluate isNested (tree.replaceAt path { m with children := children }) =
            .ok found →
          found = before ++
            ((Node.positions { m with children := children }).map (path ++ ·)).flatMap
              (catalog.recordsAt isNested (tree.replaceAt path { m with children := children })) ++
            after := by
  have sameHead : m.emptied = Node.emptied { m with children := children } :=
    Node.ext_of_parts (by simp) (by simp) (by simp)
      ((Node.children_emptied_of_module isModule).trans
        (Node.children_emptied_of_module (by exact isModule)).symm)
  have apart : StandsApart tree path m { m with children := children } :=
    ⟨reached, isModule, sameHead, free, branching⟩
  have around : ∀ outside, ¬ path <+: outside → _ := fun outside away =>
    apart.recordsAt_eq catalog isNested shaped otherShaped away
  refine ⟨around, ?_⟩
  obtain ⟨before, after, away, split⟩ := Node.exists_positions_replaceAt reached
  have ownSplit := split m
  rw [Node.replaceAt_self reached] at ownSplit
  have sameBefore := List.flatMap_congr fun place member =>
    around place (away place (List.mem_append_left after member))
  have sameAfter := List.flatMap_congr fun place member =>
    around place (away place (List.mem_append_right before member))
  refine ⟨before.flatMap (catalog.recordsAt isNested tree),
    after.flatMap (catalog.recordsAt isNested tree), ?_, ?_⟩
  · intro found returned
    exact evaluate_eq_split ownSplit returned
  · intro found returned
    rw [evaluate_eq_split (split _) returned, sameBefore, sameAfter]

/-! ## A module in the body of a caller -/

section Caller

open Catalog (nodeOnLine importsOnly importOnLine)

def variableOnLine (name : String) (line : Nat) : Node :=
  nodeOnLine .var line [("name", .one (.text name))] []

def errorOnLine (line : Nat) : Node :=
  nodeOnLine .atom line [("value", .one (.text "error"))] []

/-- A public function without parameters. -/
def functionOnLine (name : String) (line : Nat) (body : List Node) : Node :=
  nodeOnLine .function line
    [("name", .one (.text name)), ("visibility", .one (.text "public"))]
    [nodeOnLine .params line [] [], nodeOnLine .block (line + 1) [] body]

/-- A `case` with one branch. -/
def caseOnLine (line : Nat) (pattern body : Node) : Node :=
  nodeOnLine .caseExpr line []
    [variableOnLine "x" line, nodeOnLine .branch (line + 1) [] [pattern, body]]

/-- A nested module with some forms. -/
def nestedWith (forms : List Node) : Node :=
  nodeOnLine .module 7 [("name", .one (.text "A.M"))] forms

/-- A function that turns every failure into an error, and a caller of it whose
body holds a module. -/
def callerAround (forms : List Node) : Node :=
  nodeOnLine .module 1 [("name", .one (.text "A"))]
    [functionOnLine "f" 2 [caseOnLine 4 (variableOnLine "_" 5) (errorOnLine 5)],
      functionOnLine "g" 6
        [nestedWith forms, nodeOnLine .call 20 [("name", .one (.text "f"))] []]]

/-- Generic errors and imports are looked at. -/
def errorsAndImports : Catalog :=
  ⟨[.importScope, .errorHandlingLocality], importsOnly.settings⟩

/-- The record about the function that hides its failures. -/
def hiddenFailure : Violation :=
  ⟨"error-handling-locality", ⟨"lib/a.ex", ⟨5, 1, 5, 1⟩⟩,
    "f/0 turns every failure into a generic error and no caller here tells them apart; " ++
      "let it fail or return the real reason.", .advisory⟩

/-- An import of module `B`. -/
def importFormOnLine (line : Nat) : Node :=
  nodeOnLine .importDirective line [("module", .one (.text "B"))] []

theorem records_outside_nested_module_import :
    ∃ before after, before ++ after = [hiddenFailure] ∧
      errorsAndImports.evaluate (fun _ => false) (callerAround [importFormOnLine 8]) =
        .ok (before ++ [importOnLine 8] ++ after) ∧
      errorsAndImports.evaluate (fun _ => false) (callerAround []) = .ok (before ++ after) := by
  have returned : errorsAndImports.evaluate (fun _ => false) (callerAround [importFormOnLine 8]) =
      .ok [hiddenFailure, importOnLine 8] := by
    decide +kernel
  have otherReturned : errorsAndImports.evaluate (fun _ => false) (callerAround []) =
      .ok [hiddenFailure] := by
    decide +kernel
  have shaped : (callerAround [importFormOnLine 8]).IsWellShaped := by
    unfold Node.IsWellShaped
    decide +kernel
  have otherShaped : ((callerAround [importFormOnLine 8]).replaceAt [1, 1, 0]
      { nestedWith [importFormOnLine 8] with children := [] }).IsWellShaped := by
    unfold Node.IsWellShaped
    decide +kernel
  have free : StandsFreely (callerAround [importFormOnLine 8]) [1, 1, 0] :=
    (standsFreely_cons_iff rfl).mpr ⟨by decide, (standsFreely_cons_iff rfl).mpr ⟨by decide,
      (standsFreely_cons_iff rfl).mpr ⟨by decide, standsFreely_nil _⟩⟩⟩
  have reached : (callerAround [importFormOnLine 8]).at? [1, 1, 0] =
      some (nestedWith [importFormOnLine 8]) := rfl
  obtain ⟨_, before, after, split, otherSplit⟩ := records_outside_nested_module errorsAndImports
    (fun _ => false) shaped otherShaped reached rfl free fun _ _ _ => rfl
  have own : ((nestedWith [importFormOnLine 8]).positions.map ([1, 1, 0] ++ ·)).flatMap
      (errorsAndImports.recordsAt (fun _ => false) (callerAround [importFormOnLine 8])) =
        [importOnLine 8] := by
    decide +kernel
  have otherOwn : ((nestedWith []).positions.map ([1, 1, 0] ++ ·)).flatMap
      (errorsAndImports.recordsAt (fun _ => false) (callerAround [])) = [] := by
    decide +kernel
  have found := split _ returned
  have otherFound : [hiddenFailure] = before ++ ((nestedWith []).positions.map
      ([1, 1, 0] ++ ·)).flatMap (errorsAndImports.recordsAt (fun _ => false) (callerAround [])) ++
        after :=
    otherSplit _ otherReturned
  rw [own] at found
  rw [otherOwn, List.append_nil] at otherFound
  exact ⟨before, after, otherFound.symm, by rw [returned, found], by rw [otherReturned, otherFound]⟩

/-- A module in the body of a caller that branches on an error: without it the
fallback branch of the function is reported, with it the branch is forgiven. -/
theorem records_outside_differ_by_nested_branch :
    ∃ forms,
      (callerAround []).at? [1, 1, 0] = some (nestedWith []) ∧
      callerAround forms = (callerAround []).replaceAt [1, 1, 0] (nestedWith forms) ∧
      (callerAround []).IsWellShaped ∧ (callerAround forms).IsWellShaped ∧
      (∃ scope, ModuleScope.ofModule (fun _ => false) (callerAround []) = .ok scope) ∧
      (∃ scope, ModuleScope.ofModule (fun _ => false) (callerAround forms) = .ok scope) ∧
      ¬ [1, 1, 0] <+: [0] ∧
      errorsAndImports.recordsAt (fun _ => false) (callerAround []) [0] =
        [hiddenFailure] ∧
      errorsAndImports.recordsAt (fun _ => false) (callerAround forms) [0] = [] ∧
      errorsAndImports.evaluate (fun _ => false) (callerAround []) = .ok [hiddenFailure] ∧
      errorsAndImports.evaluate (fun _ => false) (callerAround forms) = .ok [] := by
  refine ⟨[functionOnLine "h" 8 [caseOnLine 10 (errorOnLine 11) (variableOnLine "y" 11)]],
    rfl, rfl, ?_, ?_, ⟨_, rfl⟩, ⟨_, rfl⟩, by decide, ?_, ?_, ?_, ?_⟩
  · unfold Node.IsWellShaped
    decide +kernel
  · unfold Node.IsWellShaped
    decide +kernel
  · decide +kernel
  · decide +kernel
  · decide +kernel
  · decide +kernel

end Caller

end StyleAudit
