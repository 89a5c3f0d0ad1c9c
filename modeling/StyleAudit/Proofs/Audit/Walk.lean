import StyleAudit.Proofs.Audit.Recursion
import StyleAudit.Proofs.Tree.Preorder

/-!
# The walk of an evaluation

What the evaluation finds at and below a node is found at the node and below
its children one by one. `Enters` is the relation between a tree and the
modules that the walk looks at: those that no module above them hides by being
impossible to index.

* `evaluateNode_returns_iff`: the walk only stops at an unreadable arity of a
  module that it enters.
* `record_mem_of_enters`: every entered module that cannot be indexed is
  reported.
* `forall_mem_of_evaluateNode`: what holds of every record of a rule and of
  every record about a module holds of all that is found.
-/

namespace StyleAudit.Catalog

variable {catalog : Catalog} {isNested : String → Bool} {context : Option ModuleContext}
  {path : NodePath} {position : Nat} {n m : Node} {ns : List Node} {found : List Violation}

/-- Siblings are evaluated one by one, and their records follow each other. -/
theorem evaluateAll_eq_ok_iff :
    catalog.evaluateAll isNested context path position ns = .ok found ↔
      ∃ parts,
        List.Forall₂
          (fun indexed part =>
            catalog.evaluateNode isNested context (path ++ [indexed.2]) indexed.1 = .ok part)
          (ns.zipIdx position) parts ∧
        parts.flatten = found := by
  induction ns generalizing position found with
  | nil =>
      rw [evaluateAll, List.zipIdx_nil]
      simp only [List.forall₂_nil_left_iff, exists_eq_left, List.flatten_nil, Except.ok.injEq]
  | cons first rest inductionHypothesis =>
      rw [evaluateAll, List.zipIdx_cons, Outcome.bind_eq_ok_iff]
      constructor
      · intro found
        rcases found with ⟨here, firstFound, finished⟩
        obtain ⟨others, restFound, same⟩ := Outcome.bind_eq_ok_iff.mp finished
        obtain ⟨parts, pairs, rfl⟩ := inductionHypothesis.mp restFound
        cases same
        exact ⟨here :: parts, List.Forall₂.cons firstFound pairs, List.flatten_cons⟩
      · intro found
        rcases found with ⟨parts, pairs, rfl⟩
        cases pairs with
        | cons firstFound pairs =>
            exact ⟨_, firstFound, Outcome.bind_eq_ok_iff.mpr
              ⟨_, inductionHypothesis.mpr ⟨_, pairs, rfl⟩, rfl⟩⟩

theorem evaluateAll_returns_iff :
    (∃ found, catalog.evaluateAll isNested context path position ns = .ok found) ↔
      ∀ indexed ∈ ns.zipIdx position, ∃ part,
        catalog.evaluateNode isNested context (path ++ [indexed.2]) indexed.1 = .ok part := by
  rw [← Outcome.exists_forall₂_iff]
  simp only [evaluateAll_eq_ok_iff]
  constructor
  · intro found
    rcases found with ⟨_, parts, pairs, _⟩
    exact ⟨parts, pairs⟩
  · intro found
    rcases found with ⟨parts, pairs⟩
    exact ⟨parts.flatten, parts, pairs, rfl⟩

/-- Where a module stands does not matter to its evaluation. -/
theorem evaluateNode_of_module (isModule : n.kind = .module) :
    catalog.evaluateNode isNested context path n =
      match ModuleScope.ofModule isNested n with
      | .error (.arity fault) => .error fault
      | .error (.confined fault) => .ok [fault.record n.name]
      | .ok scope => do
        let below ← catalog.evaluateAll isNested (some ⟨scope, CallGraph.ofScope scope⟩) [] 0
          n.children
        return catalog.check ⟨scope, CallGraph.ofScope scope⟩ ⟨[], n⟩ ++ below := by
  obtain ⟨kind, span, attributes, children⟩ := n
  cases isModule
  unfold evaluateNode
  exact if_pos rfl

theorem evaluateNode_of_not_module (noModule : n.kind ≠ .module) :
    catalog.evaluateNode isNested context path n = do
      let below ← catalog.evaluateAll isNested context path 0 n.children
      return catalog.ownRecords ⟨path, n⟩ context ++ below := by
  obtain ⟨kind, span, attributes, children⟩ := n
  rw [evaluateNode, if_neg noModule]

/-- What the walk finds at and below a node: one record about a module that
cannot be indexed, or the records of the rules before those below the node. -/
theorem evaluateNode_eq_ok_iff :
    catalog.evaluateNode isNested context path n = .ok found ↔
      (n.kind = .module ∧ ∃ fault, ModuleScope.ofModule isNested n = .error (.confined fault) ∧
        found = [fault.record n.name]) ∨
      (n.kind = .module ∧ ∃ scope below, ModuleScope.ofModule isNested n = .ok scope ∧
        catalog.evaluateAll isNested (some ⟨scope, CallGraph.ofScope scope⟩) [] 0 n.children =
          .ok below ∧
        found = catalog.check ⟨scope, CallGraph.ofScope scope⟩ ⟨[], n⟩ ++ below) ∨
      (n.kind ≠ .module ∧ ∃ below,
        catalog.evaluateAll isNested context path 0 n.children = .ok below ∧
        found = catalog.ownRecords ⟨path, n⟩ context ++ below) := by
  by_cases isModule : n.kind = .module
  · rw [evaluateNode_of_module isModule]
    cases indexed : ModuleScope.ofModule isNested n with
    | error fault =>
        cases fault with
        | arity fault => simp [isModule]
        | confined fault => simp [isModule, eq_comm]
    | ok scope =>
        rw [Outcome.bind_eq_ok_iff]
        constructor
        · intro found
          rcases found with ⟨below, belowFound, same⟩
          cases same
          exact Or.inr (Or.inl ⟨isModule, scope, below, rfl, belowFound, rfl⟩)
        · intro found
          rcases found with ⟨_, fault, impossible, _⟩ | ⟨_, other, below, same, belowFound, rfl⟩ |
            ⟨impossible, _⟩
          · cases impossible
          · cases same
            exact ⟨below, belowFound, rfl⟩
          · exact absurd isModule impossible
  · rw [evaluateNode_of_not_module isModule, Outcome.bind_eq_ok_iff]
    constructor
    · intro found
      rcases found with ⟨below, belowFound, same⟩
      cases same
      exact Or.inr (Or.inr ⟨isModule, below, belowFound, rfl⟩)
    · intro found
      rcases found with ⟨impossible, _⟩ | ⟨impossible, _⟩ | ⟨_, below, belowFound, rfl⟩
      · exact absurd impossible isModule
      · exact absurd impossible isModule
      · exact ⟨below, belowFound, rfl⟩

/-! ## The modules that are looked at -/

/-- The walk goes on below a node: it is no module, or one that can be
indexed. -/
def GoesBelow (isNested : String → Bool) (n : Node) : Prop :=
  n.kind = .module → ∃ scope, ModuleScope.ofModule isNested n = .ok scope

/-- The walk of a tree looks at a module. -/
inductive Enters (isNested : String → Bool) : (tree entered : Node) → Prop
  | here {m : Node} (isModule : m.kind = .module) : Enters isNested m m
  | descend {n child m : Node} (passable : GoesBelow isNested n) (member : child ∈ n.children)
      (later : Enters isNested child m) : Enters isNested n m

/-- A module is entered if it is the root, or if the evaluation goes below the root
and enters it there. -/
theorem enters_iff :
    Enters isNested n m ↔
      (m = n ∧ n.kind = .module) ∨
        (GoesBelow isNested n ∧ ∃ child ∈ n.children, Enters isNested child m) := by
  constructor
  · intro entered
    cases entered with
    | here isModule => exact Or.inl ⟨rfl, isModule⟩
    | descend passable member later => exact Or.inr ⟨passable, _, member, later⟩
  · intro found
    rcases found with ⟨rfl, isModule⟩ | ⟨passable, child, member, later⟩
    · exact Enters.here isModule
    · exact Enters.descend passable member later

theorem Enters.isModule (entered : Enters isNested n m) : m.kind = .module := by
  induction entered with
  | here isModule => exact isModule
  | descend _ _ _ inductionHypothesis => exact inductionHypothesis

theorem exists_mem_zipIdx {child : Node} (position : Nat) (member : child ∈ ns) :
    ∃ place, (child, place) ∈ ns.zipIdx position := by
  rw [← List.zipIdx_map_fst position ns] at member
  obtain ⟨⟨_, place⟩, indexed, rfl⟩ := List.mem_map.mp member
  exact ⟨place, indexed⟩

/-- A property of all modules that the walk enters, said of the root and of
what lies below it. -/
theorem forall_enters_iff {holds : Node → Prop} :
    (∀ m, Enters isNested n m → holds m) ↔
      (n.kind = .module → holds n) ∧
        (GoesBelow isNested n → ∀ child ∈ n.children, ∀ m, Enters isNested child m → holds m) := by
  constructor
  · intro everywhere
    exact ⟨fun isModule => everywhere n (Enters.here isModule),
      fun passable child member m later => everywhere m (Enters.descend passable member later)⟩
  · intro both m entered
    rcases both with ⟨atRoot, below⟩
    rcases enters_iff.mp entered with ⟨rfl, isModule⟩ | ⟨passable, child, member, later⟩
    · exact atRoot isModule
    · exact below passable child member m later

/-- The walk of a node returns when its scope can be read, and the walks of its
children do if it goes below. -/
theorem evaluateNode_returns_iff_of_children {returns : Node → Prop}
    (childrenReturn : ∀ context path,
      (∃ below, catalog.evaluateAll isNested context path 0 n.children = .ok below) ↔
        ∀ child ∈ n.children, returns child) :
    (∃ found, catalog.evaluateNode isNested context path n = .ok found) ↔
      (n.kind = .module → ∀ fault, ModuleScope.ofModule isNested n ≠ .error (.arity fault)) ∧
        (GoesBelow isNested n → ∀ child ∈ n.children, returns child) := by
  by_cases isModule : n.kind = .module
  · rw [evaluateNode_of_module isModule, GoesBelow]
    cases ModuleScope.ofModule isNested n with
    | error stopped => cases stopped <;> simp [isModule]
    | ok scope =>
        have below := childrenReturn (some ⟨scope, CallGraph.ofScope scope⟩) []
        simp only [Outcome.bind_eq_ok_iff, ← below]
        simp [isModule, pure, Except.pure]
  · rw [evaluateNode_of_not_module isModule, GoesBelow]
    simp only [Outcome.bind_eq_ok_iff, ← childrenReturn context path]
    simp [isModule, pure, Except.pure]

/-- Only an unreadable arity of a module that the walk enters stops it. -/
theorem evaluateNode_returns_iff :
    (∃ found, catalog.evaluateNode isNested context path n = .ok found) ↔
      ∀ m, Enters isNested n m →
        ∀ fault, ModuleScope.ofModule isNested m ≠ .error (.arity fault) := by
  induction n using Node.childInduction generalizing context path with
  | step n inductionHypothesis =>
      rw [forall_enters_iff]
      apply evaluateNode_returns_iff_of_children
      intro context path
      rw [evaluateAll_returns_iff]
      constructor
      · intro returned child member
        obtain ⟨place, indexed⟩ := exists_mem_zipIdx 0 member
        exact (inductionHypothesis child member).mp (returned _ indexed)
      · intro readable indexed member
        have childMember : indexed.1 ∈ n.children := List.fst_mem_of_mem_zipIdx member
        exact (inductionHypothesis indexed.1 childMember).mpr (readable indexed.1 childMember)

/-! ## What is found -/

theorem mem_of_evaluateAll {child : Node} {v : Violation}
    (returned : catalog.evaluateAll isNested context path position ns = .ok found)
    (member : child ∈ ns)
    (within : ∀ place found,
      catalog.evaluateNode isNested context (path ++ [place]) child = .ok found → v ∈ found) :
    v ∈ found := by
  obtain ⟨parts, pairs, rfl⟩ := evaluateAll_eq_ok_iff.mp returned
  obtain ⟨place, indexed⟩ := exists_mem_zipIdx position member
  obtain ⟨childFound, partMember, childReturned⟩ :=
    Outcome.exists_of_forall₂_of_mem_left pairs indexed
  exact List.mem_flatten_of_mem partMember (within place childFound childReturned)

/-- Every module that the walk enters and cannot index is reported. -/
theorem record_mem_of_enters {fault : ModuleFault}
    (returned : catalog.evaluateNode isNested context path n = .ok found)
    (entered : Enters isNested n m)
    (broken : ModuleScope.ofModule isNested m = .error (.confined fault)) :
    fault.record m.name ∈ found := by
  induction entered generalizing context path found with
  | here isModule =>
      rw [evaluateNode_of_module isModule, broken] at returned
      cases returned
      exact List.mem_singleton_self _
  | descend passable member _ inductionHypothesis =>
      rcases evaluateNode_eq_ok_iff.mp returned with ⟨isModule, confined, hidden, _⟩ |
        ⟨_, scope, below, _, belowFound, rfl⟩ | ⟨_, below, belowFound, rfl⟩
      · obtain ⟨scope, indexed⟩ := passable isModule
        rw [hidden] at indexed
        cases indexed
      · exact List.mem_append_right _ <| mem_of_evaluateAll belowFound member
          fun _ _ childReturned => inductionHypothesis childReturned broken
      · exact List.mem_append_right _ <| mem_of_evaluateAll belowFound member
          fun _ _ childReturned => inductionHypothesis childReturned broken

theorem flatMap_filter_eq {key : Type} (wanted : Rule → Prop) [DecidablePred wanted]
    (records : Rule → List key) (rules : List Rule) :
    (rules.filter (wanted ·)).flatMap records =
      rules.flatMap fun rule => if wanted rule then records rule else [] := by
  induction rules with
  | nil => rfl
  | cons rule rest inductionHypothesis =>
      by_cases interested : wanted rule
      · rw [List.filter_cons_of_pos (by simpa using interested), List.flatMap_cons,
          List.flatMap_cons, if_pos interested, inductionHypothesis]
      · rw [List.filter_cons_of_neg (by simpa using interested), List.flatMap_cons,
          if_neg interested, inductionHypothesis, List.nil_append]

theorem forall_mem_check {property : Violation → Prop}
    (ofRules : ∀ rule finding, property (Rule.report rule finding))
    (inModule : ModuleContext) (site : Site) :
    ∀ v ∈ catalog.check inModule site, property v := by
  intro v member
  obtain ⟨rule, _, found⟩ := List.mem_flatMap.mp member
  obtain ⟨finding, _, rfl⟩ := List.mem_map.mp found
  exact ofRules rule finding

/-- What holds of every record of a rule and of every record about a module
holds of all that is found. -/
theorem forall_mem_of_evaluateNode {property : Violation → Prop}
    (ofRules : ∀ rule finding, property (Rule.report rule finding))
    (ofModules : ∀ (fault : ModuleFault) (name : String), property (fault.record name))
    (returned : catalog.evaluateNode isNested context path n = .ok found) :
    ∀ v ∈ found, property v := by
  induction n using Node.childInduction generalizing context path found with
  | step n inductionHypothesis =>
      have belowHolds : ∀ context path below,
          catalog.evaluateAll isNested context path 0 n.children = .ok below →
            ∀ v ∈ below, property v := by
        intro context path below belowFound v member
        obtain ⟨parts, pairs, rfl⟩ := evaluateAll_eq_ok_iff.mp belowFound
        obtain ⟨part, partMember, listed⟩ := List.mem_flatten.mp member
        obtain ⟨indexed, place, childReturned⟩ :=
          Outcome.exists_of_forall₂_of_mem_right pairs partMember
        have childMember : indexed.1 ∈ n.children := List.fst_mem_of_mem_zipIdx place
        exact inductionHypothesis indexed.1 childMember childReturned v listed
      intro v member
      rcases evaluateNode_eq_ok_iff.mp returned with ⟨_, fault, _, rfl⟩ |
        ⟨_, scope, below, _, belowFound, rfl⟩ | ⟨_, below, belowFound, rfl⟩
      · rw [List.mem_singleton.mp member]
        exact ofModules fault n.name
      · rcases List.mem_append.mp member with own | later
        · exact forall_mem_check ofRules _ _ v own
        · exact belowHolds _ _ _ belowFound v later
      · rcases List.mem_append.mp member with own | later
        · cases context with
          | none => cases own
          | some inModule => exact forall_mem_check ofRules _ _ v own
        · exact belowHolds _ _ _ belowFound v later

/-! ## The whole walk -/

/-- An evaluation yields records exactly when no module that it enters has an import
list with an arity that cannot be read. -/
theorem evaluate_returns_iff :
    (∃ found, catalog.evaluate isNested n = .ok found) ↔
      ∀ m, Enters isNested n m →
        ∀ fault, ModuleScope.ofModule isNested m ≠ .error (.arity fault) := by
  rw [evaluate_eq_evaluateNode]
  exact evaluateNode_returns_iff

theorem record_mem_of_evaluate {fault : ModuleFault}
    (returned : catalog.evaluate isNested n = .ok found) (entered : Enters isNested n m)
    (broken : ModuleScope.ofModule isNested m = .error (.confined fault)) :
    fault.record m.name ∈ found := by
  rw [evaluate_eq_evaluateNode] at returned
  exact record_mem_of_enters returned entered broken

theorem forall_mem_of_evaluate {property : Violation → Prop}
    (ofRules : ∀ rule finding, property (Rule.report rule finding))
    (ofModules : ∀ (fault : ModuleFault) (name : String), property (fault.record name))
    (returned : catalog.evaluate isNested n = .ok found) :
    ∀ v ∈ found, property v := by
  rw [evaluate_eq_evaluateNode] at returned
  exact forall_mem_of_evaluateNode ofRules ofModules returned

end StyleAudit.Catalog
