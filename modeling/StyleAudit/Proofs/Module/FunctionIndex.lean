import StyleAudit.Proofs.Module.Scope
import StyleAudit.Proofs.Tree.Position

/-!
# The function index of a module

The functions of a scope are the function forms of its module, joined by name
and number of parameters: `ModuleScope.IndexesForms`. `ofModule_indexes_forms`
says so of every scope that is built, and when and where the function forms of a
module cannot be joined.
-/

namespace StyleAudit

variable {isNested : String → Bool} {m : Node} {scope : ModuleScope}

/-! ## Scopes that are built -/

/-- The functions of a scope are the function forms of its module, joined by
name and number of parameters. -/
structure ModuleScope.IndexesForms (scope : ModuleScope) (m : Node) : Prop where
  /-- Each function form is a clause of one function. -/
  joined : ∀ clause : Clause, m.children[clause.position]? = some clause.node →
    clause.node.kind = .function → ∃! group, group ∈ scope.functions ∧ clause ∈ group.clauses
  /-- The clauses of a function are all function forms of its key. -/
  clauses : ∀ group ∈ scope.functions, ∀ clause : Clause, clause ∈ group.clauses ↔
    m.children[clause.position]? = some clause.node ∧ clause.node.kind = .function ∧
      clause.key = group.key
  /-- The clauses of a function are in source order. -/
  ordered : ∀ group ∈ scope.functions,
    group.clauses.Pairwise fun earlier later => earlier.position < later.position
  visible : ∀ group ∈ scope.functions, ∀ clause ∈ group.clauses,
    clause.visibility = group.visibility
  /-- Functions are counted in the order of their first clauses. -/
  positions : scope.functions.map (·.position) = List.range scope.functions.length
  firsts : scope.functions.Pairwise fun earlier later =>
    earlier.first.position < later.first.position
  leastArity : ∀ group ∈ scope.functions,
    group.HasLeastArity ∧ group.minArity ≤ group.key.arity
  /-- The function of a clause is found at the path of the form, and none
  anywhere else. -/
  lookUp : ∀ path group, scope.functionForClause? path = some group ↔
    group ∈ scope.functions ∧ ∃ clause ∈ group.clauses, path = [clause.position]
  elsewhere : ∀ path n, m.at? path = some n → path.length ≠ 1 ∨ n.kind ≠ .function →
    scope.functionForClause? path = none

/-- The functions of a scope index the clauses of its module. -/
theorem indexes_of_ofModule (indexed : ModuleScope.ofModule isNested m = .ok scope) :
    Indexes (clausesOf m.children) scope.functions := by
  obtain ⟨_, functions, grouped, imports, _, rfl⟩ := ofModule_eq_ok_iff.mp indexed
  exact indexes_of_groupClauses grouped

namespace Indexes

variable {forms : List Node} {groups : List FunctionGroup} {group : FunctionGroup}

/-- The clauses of a function are the function forms of the module that have its key. -/
theorem mem_clauses_iff (index : Indexes (clausesOf forms) groups) (member : group ∈ groups)
    {clause : Clause} :
    clause ∈ group.clauses ↔ forms[clause.position]? = some clause.node ∧
      clause.node.kind = .function ∧ clause.key = group.key := by
  rw [index.clauses_eq group member, List.mem_filter, mem_clausesOf_iff, beq_iff_eq, and_assoc]

theorem key_of_mem_clauses (index : Indexes (clausesOf forms) groups) (member : group ∈ groups)
    {clause : Clause} (listed : clause ∈ group.clauses) : clause.key = group.key :=
  ((index.mem_clauses_iff member).mp listed).2.2

theorem eq_of_position_eq (index : Indexes (clausesOf forms) groups) {other : FunctionGroup}
    (member : group ∈ groups) (otherMember : other ∈ groups) {clause otherClause : Clause}
    (listed : clause ∈ group.clauses) (otherListed : otherClause ∈ other.clauses)
    (same : clause.position = otherClause.position) : group = other := by
  have isForm : ∀ {group}, group ∈ groups → ∀ {clause}, clause ∈ group.clauses →
      clause ∈ clausesOf forms := by
    intro group member clause listed
    rw [index.clauses_eq group member] at listed
    exact List.mem_of_mem_filter listed
  have sameClause := StyleAudit.eq_of_position_eq (isForm member listed)
    (isForm otherMember otherListed) same
  refine index.eq_of_key_eq member otherMember ?_
  rw [← index.key_of_mem_clauses member listed, sameClause,
    index.key_of_mem_clauses otherMember otherListed]

theorem existsUnique_group (index : Indexes (clausesOf forms) groups) (clause : Clause)
    (found : forms[clause.position]? = some clause.node)
    (isFunction : clause.node.kind = .function) :
    ∃! group, group ∈ groups ∧ clause ∈ group.clauses := by
  obtain ⟨group, member, sameKey⟩ :=
    List.mem_map.mp (index.declared clause (mem_clausesOf_iff.mpr ⟨found, isFunction⟩))
  have listed := (index.mem_clauses_iff member).mpr ⟨found, isFunction, sameKey.symm⟩
  refine ⟨group, ⟨member, listed⟩, ?_⟩
  rintro other ⟨otherMember, otherListed⟩
  exact index.eq_of_position_eq otherMember member otherListed listed rfl

theorem pairwise_firsts (index : Indexes (clausesOf forms) groups) :
    groups.Pairwise fun earlier later => earlier.first.position < later.first.position := by
  have ordered := (pairwise_position_clausesOf forms).sublist index.firsts
  rw [List.pairwise_map] at ordered
  exact ordered

theorem minArity_le_arity (index : Indexes (clausesOf forms) groups) (member : group ∈ groups) :
    group.minArity ≤ group.key.arity := by
  obtain ⟨clause, listed, same⟩ := (index.leastArity group member).2
  rw [same, ← index.key_of_mem_clauses member listed]
  exact Nat.sub_le _ _

/-- The function found at a position is the one that has a clause there. -/
theorem find?_position_eq_some_iff (index : Indexes (clausesOf forms) groups) (position : Nat) :
    groups.find? (fun group => group.clauses.any (·.position == position)) = some group ↔
      group ∈ groups ∧ ∃ clause ∈ group.clauses, position = clause.position := by
  have holds : ∀ other : FunctionGroup,
      other.clauses.any (·.position == position) = true ↔
        ∃ clause ∈ other.clauses, position = clause.position := by
    intro other
    simp only [List.any_eq_true, beq_iff_eq]
    exact exists_congr fun clause => and_congr_right fun _ => eq_comm
  rw [index.find?_eq_some_iff, holds]
  refine and_congr_right fun member => and_iff_left_of_imp ?_
  rintro ⟨clause, listed, here⟩ other otherMember passes
  obtain ⟨otherClause, otherListed, there⟩ := (holds other).mp passes
  have same := index.eq_of_position_eq member otherMember listed otherListed (here.symm.trans there)
  exact Nat.le_of_eq (congrArg _ same)

end Indexes

theorem functionForClause?_eq_some_iff
    (index : Indexes (clausesOf m.children) scope.functions) {path : NodePath}
    {group : FunctionGroup} :
    scope.functionForClause? path = some group ↔
      group ∈ scope.functions ∧ ∃ clause ∈ group.clauses, path = [clause.position] := by
  match path with
  | [] => simp [ModuleScope.functionForClause?]
  | [position] =>
      rw [ModuleScope.functionForClause?, index.find?_position_eq_some_iff]
      simp
  | _ :: _ :: _ => simp [ModuleScope.functionForClause?]

/-- The functions of a scope partition the function forms of its module by their keys. -/
theorem indexesForms_of_ofModule (indexed : ModuleScope.ofModule isNested m = .ok scope) :
    scope.IndexesForms m := by
  have index := indexes_of_ofModule indexed
  refine ⟨?_, ?_, ?_, index.visible, index.positions, index.pairwise_firsts, ?_, ?_, ?_⟩
  · intro clause found isFunction
    exact index.existsUnique_group clause found isFunction
  · intro group member clause
    exact index.mem_clauses_iff member
  · intro group member
    rw [index.clauses_eq group member]
    exact (pairwise_position_clausesOf m.children).filter _
  · intro group member
    exact ⟨index.leastArity group member, index.minArity_le_arity member⟩
  · intro path group
    exact functionForClause?_eq_some_iff index
  · intro path n reached apart
    rw [Option.eq_none_iff_forall_ne_some]
    intro group found
    obtain ⟨member, clause, listed, rfl⟩ := (functionForClause?_eq_some_iff index).mp found
    obtain ⟨isForm, isFunction, _⟩ := (index.mem_clauses_iff member).mp listed
    rw [Node.at?_cons isForm, Node.at?_nil] at reached
    cases reached
    rcases apart with longer | noFunction
    · exact longer rfl
    · exact noFunction isFunction

/-! ## Modules that cannot be indexed -/

/-- A name and number of parameters has a public and a private clause among the
forms. -/
def MixesVisibility (forms : List Node) : Prop :=
  ∃ shown ∈ clausesOf forms, ∃ kept ∈ clausesOf forms, shown.key = kept.key ∧
    shown.visibility = .exported ∧ kept.visibility = .hidden

/-- The order of the forms does not matter. -/
theorem MixesVisibility.of_perm {forms others : List Node} (mixed : MixesVisibility forms)
    (perm : forms.Perm others) : MixesVisibility others := by
  have moved : ∀ clause ∈ clausesOf forms, ∃ position,
      (⟨position, clause.node⟩ : Clause) ∈ clausesOf others := by
    intro clause member
    obtain ⟨found, isFunction⟩ := mem_clausesOf_iff.mp member
    obtain ⟨position, there⟩ :=
      List.mem_iff_getElem?.mp (perm.mem_iff.mp (List.mem_of_getElem? found))
    exact ⟨position, mem_clausesOf_iff.mpr ⟨there, isFunction⟩⟩
  obtain ⟨shown, shownMember, kept, keptMember, sameKey, exported, hidden⟩ := mixed
  obtain ⟨shownAt, shownMoved⟩ := moved shown shownMember
  obtain ⟨keptAt, keptMoved⟩ := moved kept keptMember
  exact ⟨_, shownMoved, _, keptMoved, sameKey, exported, hidden⟩

/-- What is wrong with an import is not the visibility of a function. -/
theorem ofDirective_ne_mixedVisibility (directive : Directive) (key : FunctionKey)
    (span : Span) :
    ImportDecl.ofDirective directive ≠ .error (.confined (.mixedVisibility key span)) := by
  intro failed
  rw [ofDirective_eq_map, Outcome.map_eq_error_iff] at failed
  split at failed
  · cases failed
  · rw [importRestriction_eq, Outcome.map_eq_error_iff, Outcome.mapM_eq_error_iff] at failed
    obtain ⟨_, entry, _, _, _, refused⟩ := failed
    by_cases fit : IsNameAndDigits entry
    · by_cases number : IsNumber (entryDigits entry)
      · obtain ⟨found, read⟩ := (importEntry_of_isNameAndDigits _ fit).1 number
        rw [read] at refused
        cases refused
      · rw [(importEntry_of_isNameAndDigits _ fit).2 number] at refused
        cases refused
    · rw [importEntry_of_not_isNameAndDigits _ fit] at refused
      cases refused

/-- A module fails on a visibility exactly when the grouping of its clauses does. -/
theorem ofModule_eq_mixedVisibility_iff (isModule : m.kind = .module) {key : FunctionKey}
    {span : Span} :
    ModuleScope.ofModule isNested m = .error (.confined (.mixedVisibility key span)) ↔
      groupClauses (clausesOf m.children) = .error (.mixedVisibility key span) := by
  rw [ofModule_eq_ofParts isNested isModule, Outcome.bind_eq_error_iff, confine_eq_error_iff]
  constructor
  · rintro (failed | ⟨functions, _, failed⟩)
    · exact failed
    · rcases Outcome.bind_eq_error_iff.mp failed with refused | ⟨imports, _, impossible⟩
      · obtain ⟨_, directive, _, _, _, unread⟩ := Outcome.mapM_eq_error_iff.mp refused
        exact absurd unread (ofDirective_ne_mixedVisibility directive key span)
      · cases impossible
  · intro failed
    exact Or.inl failed

/-- The function forms of a module that can be indexed are joined by name and
number of parameters. Those of a module cannot be joined when a name and number
of parameters has a public and a private one, in whatever order the forms stand;
the fault is at the first form that differs in visibility from the first one of
its name and number of parameters. -/
theorem ofModule_indexes_forms (isNested : String → Bool) {m : Node}
    (isModule : m.kind = .module) :
    (∀ scope, ModuleScope.ofModule isNested m = .ok scope → scope.IndexesForms m) ∧
    (∀ forms, forms.Perm m.children →
      ((∃ key span, ModuleScope.ofModule isNested { m with children := forms } =
          .error (.confined (.mixedVisibility key span))) ↔ MixesVisibility m.children)) ∧
    ∀ key span, ModuleScope.ofModule isNested m =
        .error (.confined (.mixedVisibility key span)) ↔
      ∃ clause, (clausesOf m.children).find? (differsFromFirst (clausesOf m.children)) =
        some clause ∧ key = clause.key ∧ span = clause.node.span := by
  refine ⟨fun scope => indexesForms_of_ofModule, ?_, ?_⟩
  · intro forms perm
    have mixes : (∃ key span, groupClauses (clausesOf forms) =
        .error (.mixedVisibility key span)) ↔ MixesVisibility forms := by
      rw [MixesVisibility, ← exists_find?_differsFromFirst_iff]
      simp only [groupClauses_eq_error_iff, ModuleFault.mixedVisibility.injEq]
      exact ⟨fun ⟨_, _, clause, found, _⟩ => ⟨clause, found⟩,
        fun ⟨clause, found⟩ => ⟨_, _, clause, found, rfl, rfl⟩⟩
    simp only [ofModule_eq_mixedVisibility_iff (m := { m with children := forms }) isModule]
    rw [mixes]
    exact ⟨fun mixed => mixed.of_perm perm, fun mixed => mixed.of_perm perm.symm⟩
  · intro key span
    rw [ofModule_eq_mixedVisibility_iff isModule, groupClauses_eq_error_iff]
    simp only [ModuleFault.mixedVisibility.injEq]

/-! ## Clauses far apart -/

/-- The range of the first column of a line. -/
def lineSpan (line : Nat) : Span :=
  ⟨"lib/a.ex", ⟨line, 1, line, 1⟩⟩

/-- A parameter that may be left out. -/
def optionalParam (line : Nat) : Node :=
  ⟨.default, lineSpan line, [], [⟨.var, lineSpan line, [("name", .one (.text "b"))], []⟩,
    ⟨.literal, lineSpan line, [("value", .one (.int 0))], []⟩]⟩

/-- A parameter that must be given. -/
def neededParam (line : Nat) : Node :=
  ⟨.var, lineSpan line, [("name", .one (.text "a"))], []⟩

def functionForm (line : Nat) (name visibility : String) (params body : List Node) : Node :=
  ⟨.function, lineSpan line,
    [("name", .one (.text name)), ("visibility", .one (.text visibility))],
    [⟨.params, lineSpan line, [], params⟩, ⟨.block, lineSpan line, [], body⟩]⟩

def moduleOf (forms : List Node) : Node :=
  ⟨.module, lineSpan 1, [("name", .one (.text "A"))], forms⟩

/-- A function between two clauses of another one, the second of which has a
default. -/
def interleavedForms : List Node :=
  [functionForm 2 "f" "public" [neededParam 2, neededParam 2] [],
    functionForm 4 "g" "private" [] [],
    functionForm 6 "f" "public" [neededParam 6, optionalParam 6] []]

/-- A private clause of the first function. -/
def privateForm : Node :=
  functionForm 8 "f" "private" [neededParam 8, neededParam 8] []

theorem ofModule_indexes_forms_interleaved :
    (∃ scope, ModuleScope.ofModule (fun _ => false) (moduleOf interleavedForms) = .ok scope ∧
      scope.functions.map (fun group => (group.key, group.minArity)) =
        [(⟨"f", 2⟩, 1), (⟨"g", 0⟩, 0)] ∧
      scope.functions.map (fun group => group.clauses.map (·.position)) = [[0, 2], [1]] ∧
      scope.IndexesForms (moduleOf interleavedForms)) ∧
    ModuleScope.ofModule (fun _ => false) (moduleOf (interleavedForms ++ [privateForm])) =
      .error (.confined (.mixedVisibility ⟨"f", 2⟩ (lineSpan 8))) ∧
    ∃ key span, ModuleScope.ofModule (fun _ => false)
      (moduleOf (privateForm :: interleavedForms)) =
        .error (.confined (.mixedVisibility key span)) := by
  obtain ⟨indexes, _, _⟩ := ofModule_indexes_forms (fun _ => false)
    (m := moduleOf interleavedForms) rfl
  obtain ⟨_, anyOrder, located⟩ := ofModule_indexes_forms (fun _ => false)
    (m := moduleOf (interleavedForms ++ [privateForm])) rfl
  refine ⟨⟨_, rfl, rfl, rfl, indexes _ rfl⟩, ?_, ?_⟩
  · exact (located _ _).mpr ⟨⟨3, privateForm⟩, rfl, rfl, rfl⟩
  · have reordered := (List.perm_append_singleton privateForm interleavedForms).symm
    refine (anyOrder _ reordered).mpr ?_
    exact ⟨⟨0, functionForm 2 "f" "public" [neededParam 2, neededParam 2] []⟩,
      mem_clausesOf_iff.mpr ⟨rfl, rfl⟩, ⟨3, privateForm⟩, mem_clausesOf_iff.mpr ⟨rfl, rfl⟩,
      rfl, rfl, rfl⟩

end StyleAudit
