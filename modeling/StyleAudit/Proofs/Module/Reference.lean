import StyleAudit.Proofs.Expression.CallSite
import StyleAudit.Proofs.Module.FunctionIndex

/-!
# The references of a module

The call sites of a scope are the calls of its module outside of nested modules,
each once: `references_record_own_calls`. `CallRef.Records` says what a call
site records of a call, and `ModuleScope.BindsTo` which function a call binds to.
-/

namespace StyleAudit

variable {isNested : String → Bool} {m call : Node} {scope : ModuleScope} {path : NodePath}

/-! ## Local resolution -/

/-- The function that a name and a number of arguments bind to: it accepts so
many arguments, and either it has exactly so many parameters, or no function has
and it is the first that accepts so many. -/
structure ModuleScope.BindsTo (scope : ModuleScope) (wanted : FunctionKey)
    (group : FunctionGroup) : Prop where
  member : group ∈ scope.functions
  named : group.key.name = wanted.name
  accepts : group.accepts wanted.arity = true
  chosen : group.key.arity = wanted.arity ∨
    (∀ other ∈ scope.functions, other.key ≠ wanted) ∧
      ∀ other ∈ scope.functions, other.key.name = wanted.name →
        other.accepts wanted.arity = true → group.position ≤ other.position

theorem FunctionKey.eq_of_parts {key other : FunctionKey} (sameName : key.name = other.name)
    (sameArity : key.arity = other.arity) : key = other := by
  cases key
  cases other
  exact (FunctionKey.mk.injEq ..).mpr ⟨sameName, sameArity⟩

section Resolution

variable {wanted : FunctionKey} {group : FunctionGroup}

theorem accepts_arity (index : Indexes (clausesOf m.children) scope.functions)
    (member : group ∈ scope.functions) : group.accepts group.key.arity = true :=
  decide_eq_true ⟨index.minArity_le_arity member, Nat.le_refl _⟩

/-- Some function is found when some function of the name accepts the number of
arguments. -/
theorem resolve?_isSome_iff (index : Indexes (clausesOf m.children) scope.functions) :
    (scope.resolve? wanted).isSome ↔ ∃ group ∈ scope.functions,
      group.key.name = wanted.name ∧ group.accepts wanted.arity = true := by
  rw [ModuleScope.resolve?, resolveIn, Option.isSome_or, Bool.or_eq_true, List.find?_isSome,
    List.find?_isSome]
  simp only [beq_iff_eq, Bool.and_eq_true]
  constructor
  · rintro (⟨group, member, rfl⟩ | found)
    · exact ⟨group, member, rfl, accepts_arity index member⟩
    · exact found
  · intro found
    exact Or.inr found

/-- A call is resolved to the function that it binds to. -/
theorem resolve?_eq_some_iff (index : Indexes (clausesOf m.children) scope.functions) :
    scope.resolve? wanted = some group ↔ scope.BindsTo wanted group := by
  rw [ModuleScope.resolve?, resolveIn]
  cases exact : scope.functions.find? (·.key == wanted) with
  | some own =>
      obtain ⟨ownMember, ownKey⟩ := mem_and_key_of_find? exact
      -- A function of that very arity is found before any other one is tried.
      rw [Option.some_or, Option.some.injEq]
      constructor
      · rintro rfl
        refine ⟨ownMember, congrArg _ ownKey, ?_, Or.inl (congrArg _ ownKey)⟩
        rw [← ownKey]
        exact accepts_arity index ownMember
      · rintro ⟨member, named, _, sameArity | ⟨noOther, _⟩⟩
        · have sameKey : group.key = wanted := FunctionKey.eq_of_parts named sameArity
          exact index.eq_of_key_eq ownMember member (ownKey.trans sameKey.symm)
        · exact absurd ownKey (noOther own ownMember)
  | none =>
      have noExact : ∀ other ∈ scope.functions, other.key ≠ wanted := by
        simpa using exact
      rw [Option.none_or, index.find?_eq_some_iff]
      simp only [Bool.and_eq_true, beq_iff_eq]
      constructor
      · rintro ⟨member, ⟨named, accepts⟩, least⟩
        exact ⟨member, named, accepts, Or.inr ⟨noExact, fun other otherMember otherNamed
          otherAccepts => least other otherMember ⟨otherNamed, otherAccepts⟩⟩⟩
      · rintro ⟨member, named, accepts, sameArity | ⟨_, least⟩⟩
        · exact absurd (FunctionKey.eq_of_parts named sameArity) (noExact group member)
        · exact ⟨member, ⟨named, accepts⟩, fun other otherMember passes =>
            least other otherMember passes.1 passes.2⟩

end Resolution

/-! ## What a call site records -/

/-- The key of the function form that a path leads into, if it leads into one. -/
def Node.callerAt (m : Node) : NodePath → Option FunctionKey
  | [] => none
  | position :: _ => m.children[position]?.bind fun form =>
    if form.kind = .function then some (Clause.key ⟨position, form⟩) else none

/-- A qualifier, if there is one, is the name of the module or stands for it. -/
def Node.IsAddressedBy (m : Node) (qualifier : Option String) : Prop :=
  ∀ name, qualifier = some name → name = m.name ∨ name = "__MODULE__"

/-- A call site records the call at a path of the module. -/
structure CallRef.Records (ref : CallRef) (scope : ModuleScope) (m : Node) (path : NodePath)
    (call : Node) : Prop where
  name : ref.name = call.name
  span : ref.span = call.span
  arity : ref.arity = m.arityAt path call
  caller : ref.caller = m.callerAt path
  /-- The call binds to a function when it may address the module and some
  function of its name accepts its arguments. -/
  binds : ref.resolved.isSome ↔ m.IsAddressedBy call.qualifier? ∧
    ∃ group ∈ scope.functions, group.key.name = call.name ∧ group.accepts ref.arity = true
  target : ∀ key, ref.resolved = some key →
    ∃ group, group.key = key ∧ scope.BindsTo ⟨call.name, ref.arity⟩ group
  /-- The module of a call without a qualifier that binds to no function is that
  of the import that lists it. -/
  module : ref.module =
    if ref.resolved = none ∧ call.qualifier? = none then
      importedFrom? scope.imports ⟨call.name, ref.arity⟩
    else call.qualifier?

/-- The call site of a call at a path of the module. -/
def ModuleScope.callSite (scope : ModuleScope) (m : Node) (path : NodePath) (call : Node) :
    CallRef :=
  .ofCall m.name scope.functions scope.imports (m.callerAt path) call (m.arityAt path call)

theorem isLocalQualifier_iff {qualifier : Option String} :
    isLocalQualifier m.name qualifier = true ↔ m.IsAddressedBy qualifier := by
  rw [Node.IsAddressedBy]
  cases qualifier with
  | none => simp [isLocalQualifier]
  | some name => simp [isLocalQualifier]

theorem callSite_resolved (scope : ModuleScope) (m : Node) (path : NodePath) (call : Node) :
    (scope.callSite m path call).resolved =
      if isLocalQualifier m.name call.qualifier? then
        (scope.resolve? ⟨call.name, m.arityAt path call⟩).map (·.key)
      else none := by
  rw [ModuleScope.callSite, CallRef.ofCall]
  split <;> rfl

/-- The call site made for a call says where it stands, what it calls and which
function it stands in. -/
theorem callSite_records (index : Indexes (clausesOf m.children) scope.functions)
    (path : NodePath) (call : Node) :
    (scope.callSite m path call).Records scope m path call := by
  refine ⟨rfl, rfl, rfl, rfl, ?_, ?_, ?_⟩
  · rw [callSite_resolved, ← isLocalQualifier_iff]
    split
    · rename_i addressed
      rw [Option.isSome_map, resolve?_isSome_iff index]
      simp only [addressed, true_and]
      rfl
    · rename_i elsewhere
      simp [elsewhere]
  · intro key resolved
    rw [callSite_resolved] at resolved
    split at resolved
    · obtain ⟨group, found, sameKey⟩ := Option.map_eq_some_iff.mp resolved
      exact ⟨group, sameKey, (resolve?_eq_some_iff index).mp found⟩
    · cases resolved
  · rw [ModuleScope.callSite, CallRef.ofCall]
    simp only [Bool.and_eq_true, Option.isNone_iff_eq_none, Option.map_eq_none_iff]

/-! ## The forms in the order in which their calls are listed -/

/-- The forms of a module in the order in which their calls are listed: the
clauses of its functions, then the other forms, nested modules left out. -/
def readForms (functions : List FunctionGroup) (forms : List Node) : List (Node × Nat) :=
  (functions.flatMap fun group => group.clauses.map fun clause => (clause.node, clause.position))
    ++ forms.zipIdx.filter fun indexed =>
      indexed.1.kind != .function && indexed.1.kind != .module

section ReadForms

variable {functions : List FunctionGroup} {forms : List Node} {indexed : Node × Nat}

theorem mem_clauseForms_iff (index : Indexes (clausesOf forms) functions) :
    (indexed ∈ functions.flatMap fun group =>
        group.clauses.map fun clause => (clause.node, clause.position)) ↔
      forms[indexed.2]? = some indexed.1 ∧ indexed.1.kind = .function := by
  simp only [List.mem_flatMap, List.mem_map]
  constructor
  · rintro ⟨group, member, clause, listed, rfl⟩
    obtain ⟨found, isFunction, _⟩ := (index.mem_clauses_iff member).mp listed
    exact ⟨found, isFunction⟩
  · rintro ⟨found, isFunction⟩
    obtain ⟨group, ⟨member, listed⟩, _⟩ :=
      index.existsUnique_group ⟨indexed.2, indexed.1⟩ found isFunction
    exact ⟨group, member, _, listed, rfl⟩

theorem mem_otherForms_iff :
    (indexed ∈ forms.zipIdx.filter fun indexed =>
        indexed.1.kind != .function && indexed.1.kind != .module) ↔
      forms[indexed.2]? = some indexed.1 ∧ indexed.1.kind ≠ .function ∧
        indexed.1.kind ≠ .module := by
  rw [List.mem_filter, List.mem_zipIdx_iff_getElem?, Bool.and_eq_true, bne_iff_ne, bne_iff_ne]

theorem mem_readForms_iff (index : Indexes (clausesOf forms) functions) :
    indexed ∈ readForms functions forms ↔
      forms[indexed.2]? = some indexed.1 ∧ indexed.1.kind ≠ .module := by
  rw [readForms, List.mem_append, mem_clauseForms_iff index, mem_otherForms_iff]
  constructor
  · rintro (⟨found, isFunction⟩ | ⟨found, _, noModule⟩)
    · refine ⟨found, ?_⟩
      rw [isFunction]
      decide
    · exact ⟨found, noModule⟩
  · rintro ⟨found, noModule⟩
    by_cases isFunction : indexed.1.kind = .function
    · exact Or.inl ⟨found, isFunction⟩
    · exact Or.inr ⟨found, isFunction, noModule⟩

/-- No form is searched for calls twice. -/
theorem nodup_readForms (index : Indexes (clausesOf forms) functions) :
    ((readForms functions forms).map (·.2)).Nodup := by
  -- Two functions share no clause, as a position has one function.
  have groupsApart : functions.Pairwise fun group other => List.Disjoint
      (group.clauses.map fun clause => (clause.node, clause.position).2)
      (other.clauses.map fun clause => (clause.node, clause.position).2) := by
    refine index.pairwise_position.imp_of_mem ?_
    intro group other member otherMember apart position inside otherInside
    obtain ⟨clause, listed, rfl⟩ := List.mem_map.mp inside
    obtain ⟨otherClause, otherListed, same⟩ := List.mem_map.mp otherInside
    have sameGroup := index.eq_of_position_eq member otherMember listed otherListed same.symm
    rw [sameGroup] at apart
    exact Nat.lt_irrefl _ apart
  have clausesApart : ∀ group ∈ functions,
      (group.clauses.map fun clause => (clause.node, clause.position).2).Nodup := by
    intro group member
    have ordered := (pairwise_position_clausesOf forms).filter (·.key == group.key)
    rw [← index.clauses_eq group member] at ordered
    rw [List.Nodup, List.pairwise_map]
    exact ordered.imp Nat.ne_of_lt
  have othersOnce : ((forms.zipIdx.filter fun indexed =>
      indexed.1.kind != .function && indexed.1.kind != .module).map (·.2)).Nodup := by
    have indices : (forms.zipIdx.map Prod.snd).Nodup := by
      rw [List.zipIdx_map_snd]
      exact List.nodup_range'
    exact indices.sublist (List.filter_sublist.map _)
  rw [readForms, List.map_append, List.nodup_append]
  refine ⟨?_, othersOnce, ?_⟩
  · simp only [List.map_flatMap, List.map_map]
    exact List.nodup_flatMap.mpr ⟨clausesApart, groupsApart⟩
  · intro position inside other otherInside same
    obtain ⟨clauseForm, clauseMember, rfl⟩ := List.mem_map.mp inside
    obtain ⟨otherForm, otherMember, rfl⟩ := List.mem_map.mp otherInside
    obtain ⟨found, isFunction⟩ := (mem_clauseForms_iff index).mp clauseMember
    obtain ⟨otherFound, noFunction, _⟩ := mem_otherForms_iff.mp otherMember
    rw [same, otherFound] at found
    rw [← Option.some.inj found] at isFunction
    exact noFunction isFunction

end ReadForms

/-! ## Call sites by their paths -/

section CallSites

variable {indexed : Node × Nat} {ref : CallRef}

/-- The call sites of a form, each with the path of the call. -/
def ModuleScope.callSitesOf (scope : ModuleScope) (m : Node) (indexed : Node × Nat) :
    List (NodePath × CallRef) :=
  indexed.1.positions.filterMap fun way =>
    (Node.callAt? false indexed.1 way).map fun called =>
      (indexed.2 :: way, .ofCall m.name scope.functions scope.imports
        (m.callerAt (indexed.2 :: way)) called.1 called.2)

theorem map_snd_callSitesOf (noModule : indexed.1.kind ≠ .module) :
    (scope.callSitesOf m indexed).map (·.2) =
      formReferences m.name scope.functions scope.imports (m.callerAt [indexed.2]) indexed.1 := by
  have sameCaller : ∀ way, m.callerAt (indexed.2 :: way) = m.callerAt [indexed.2] :=
    fun _ => rfl
  rw [formReferences, Node.calls, if_neg noModule, Node.callsBelow_eq_filterMap,
    ModuleScope.callSitesOf, List.map_filterMap, List.map_filterMap]
  simp only [Option.map_map, Function.comp_def, sameCaller]

/-- The call sites below a form are those of the module's own calls there. -/
theorem mem_callSitesOf_iff (isModule : m.kind = .module)
    (found : m.children[indexed.2]? = some indexed.1) :
    (path, ref) ∈ scope.callSitesOf m indexed ↔
      ∃ way call, path = indexed.2 :: way ∧ m.IsOwnCall path call ∧
        ref = scope.callSite m path call := by
  simp only [ModuleScope.callSitesOf, List.mem_filterMap, Option.map_eq_some_iff, Prod.exists,
    Prod.mk.injEq]
  constructor
  · rintro ⟨way, listed, call, arity, called, rfl, rfl⟩
    obtain ⟨own, rfl⟩ := (Node.callAt?_form_eq_some_iff isModule found).mp called
    exact ⟨way, call, rfl, own, rfl⟩
  · rintro ⟨way, call, rfl, own, rfl⟩
    have reached := own.reached
    rw [Node.at?_cons found] at reached
    refine ⟨way, Node.mem_positions_iff.mpr ⟨call, reached⟩, call, _, ?_, rfl, rfl⟩
    exact (Node.callAt?_form_eq_some_iff isModule found).mpr ⟨own, rfl⟩

theorem nodup_callSitesOf (scope : ModuleScope) (m : Node) (indexed : Node × Nat) :
    ((scope.callSitesOf m indexed).map (·.1)).Nodup := by
  rw [ModuleScope.callSitesOf, List.map_filterMap]
  refine indexed.1.nodup_positions.filterMap ?_
  intro way other path leads otherLeads
  simp only [Option.map_map, Option.mem_def, Option.map_eq_some_iff, Function.comp_def]
    at leads otherLeads
  obtain ⟨_, _, rfl⟩ := leads
  obtain ⟨_, _, same⟩ := otherLeads
  exact (List.cons.inj same).2.symm

theorem exists_of_mem_callSitesOf (listed : path ∈ (scope.callSitesOf m indexed).map (·.1)) :
    ∃ way, path = indexed.2 :: way := by
  rw [ModuleScope.callSitesOf, List.map_filterMap, List.mem_filterMap] at listed
  obtain ⟨way, _, leads⟩ := listed
  simp only [Option.map_map, Option.map_eq_some_iff, Function.comp_def] at leads
  obtain ⟨_, _, rfl⟩ := leads
  exact ⟨way, rfl⟩

/-- The call sites of all forms are those of the module. -/
theorem flatMap_callSitesOf (index : Indexes (clausesOf m.children) scope.functions) :
    (readForms scope.functions m.children).flatMap
        (fun indexed => (scope.callSitesOf m indexed).map (·.2)) =
      moduleReferences m.name scope.functions scope.imports m.children := by
  have formwise : ∀ indexed ∈ readForms scope.functions m.children,
      (scope.callSitesOf m indexed).map (·.2) = formReferences m.name scope.functions
        scope.imports (m.callerAt [indexed.2]) indexed.1 := by
    intro indexed member
    exact map_snd_callSitesOf ((mem_readForms_iff index).mp member).2
  have others : (m.children.filter fun form => form.kind != .function && form.kind != .module) =
      (m.children.zipIdx.filter fun indexed =>
        indexed.1.kind != .function && indexed.1.kind != .module).map Prod.fst := by
    rw [← List.zipIdx_map_fst 0 m.children, List.filter_map, List.zipIdx_map_fst]
    rfl
  rw [List.flatMap_congr formwise, readForms, List.flatMap_append, List.flatMap_assoc,
    moduleReferences, others, List.flatMap_map]
  congr 1
  · refine List.flatMap_congr fun group member => ?_
    rw [List.flatMap_map]
    refine List.flatMap_congr fun clause listed => ?_
    obtain ⟨found, isFunction, sameKey⟩ := (index.mem_clauses_iff member).mp listed
    have caller : m.callerAt [clause.position] = some group.key := by
      rw [Node.callerAt, found, Option.bind_some, if_pos isFunction, ← sameKey]
    rw [caller]
  · refine List.flatMap_congr fun indexed member => ?_
    obtain ⟨found, noFunction, _⟩ := mem_otherForms_iff.mp member
    have caller : m.callerAt [indexed.2] = none := by
      rw [Node.callerAt, found, Option.bind_some, if_neg noFunction]
    rw [caller]

end CallSites

/-- The call sites of a scope, each with the path of its call: every call of the
module itself has one call site and there are no others. -/
theorem exists_callSites (indexed : ModuleScope.ofModule isNested m = .ok scope) :
    ∃ sites : List (NodePath × CallRef), sites.map (·.2) = scope.references ∧
      (sites.map (·.1)).Nodup ∧
      ∀ path ref, (path, ref) ∈ sites ↔
        ∃ call, m.IsOwnCall path call ∧ ref = scope.callSite m path call := by
  have index := indexes_of_ofModule indexed
  obtain ⟨isModule, functions, _, imports, _, rfl⟩ := ofModule_eq_ok_iff.mp indexed
  refine ⟨(readForms functions m.children).flatMap
    ((ModuleScope.ofParts isNested m functions imports).callSitesOf m), ?_, ?_, ?_⟩
  · rw [List.map_flatMap]
    exact flatMap_callSitesOf index
  · rw [List.map_flatMap, List.nodup_flatMap]
    refine ⟨fun form _ => nodup_callSitesOf _ m form, ?_⟩
    refine (List.pairwise_map.mp (nodup_readForms index)).imp ?_
    intro form other apart path inside otherInside
    obtain ⟨_, rfl⟩ := exists_of_mem_callSitesOf inside
    obtain ⟨_, same⟩ := exists_of_mem_callSitesOf otherInside
    exact apart (List.cons.inj same).1
  · intro path ref
    rw [List.mem_flatMap]
    constructor
    · rintro ⟨form, member, inside⟩
      obtain ⟨found, _⟩ := (mem_readForms_iff index).mp member
      obtain ⟨_, call, _, own, same⟩ := (mem_callSitesOf_iff isModule found).mp inside
      exact ⟨call, own, same⟩
    · rintro ⟨call, own, same⟩
      obtain ⟨position, way, form, rfl, found, noModule⟩ := own.exists_form isModule
      refine ⟨(form, position), (mem_readForms_iff index).mpr ⟨found, noModule⟩, ?_⟩
      exact (mem_callSitesOf_iff isModule found).mpr ⟨way, call, rfl, own, same⟩

/-- Call sites with the paths of their calls: all call sites of the scope and
all calls of the module outside of nested modules, none of them twice. -/
structure ModuleScope.ListsCalls (scope : ModuleScope) (m : Node)
    (sites : List (NodePath × CallRef)) : Prop where
  references : sites.map (·.2) = scope.references
  once : (sites.map (·.1)).Nodup
  calls : ∀ path, path ∈ sites.map (·.1) ↔ ∃ call, m.IsOwnCall path call
  records : ∀ path ref, (path, ref) ∈ sites →
    ∃ call, m.IsOwnCall path call ∧ ref.Records scope m path call

/-- The call sites of a scope are the calls of its module outside of nested
modules: each of these calls has one call site, which records it, and there are
no other call sites. -/
theorem references_record_own_calls (indexed : ModuleScope.ofModule isNested m = .ok scope) :
    ∃ sites, scope.ListsCalls m sites := by
  obtain ⟨sites, listed, single, sited⟩ := exists_callSites indexed
  refine ⟨sites, listed, single, ?_, ?_⟩
  · intro path
    simp only [List.mem_map, Prod.exists, exists_and_right, exists_eq_right, sited]
    exact ⟨fun ⟨_, call, own, _⟩ => ⟨call, own⟩, fun ⟨call, own⟩ => ⟨_, call, own, rfl⟩⟩
  · intro path ref member
    obtain ⟨call, own, rfl⟩ := (sited path ref).mp member
    exact ⟨call, own, callSite_records (indexes_of_ofModule indexed) path call⟩

/-! ## Calls on all sides -/

def callForm (line : Nat) (qualifier : Literal) (name : String) (arguments : List Node) : Node :=
  ⟨.call, lineSpan line, [("name", .one (.text name)), ("module", .one qualifier)], arguments⟩

/-- A function that pipes into another one, which calls it back without the
second argument, holds a nested module and is followed by a call with too many
arguments. -/
def callingForms : List Node :=
  [functionForm 2 "f" "public" [neededParam 2, optionalParam 2]
      [⟨.pipe, lineSpan 3, [], [neededParam 3, callForm 3 .null "g" []]⟩],
    functionForm 5 "g" "private" [neededParam 5]
      [callForm 6 (.text "A") "f" [neededParam 6], moduleOf [callForm 7 .null "g" []]],
    callForm 9 .null "g" [neededParam 9, neededParam 9]]

theorem references_record_own_calls_mutual :
    ∃ scope, ModuleScope.ofModule (fun _ => false) (moduleOf callingForms) = .ok scope ∧
      scope.references.map (fun ref => (ref.name, ref.arity, ref.caller, ref.resolved)) =
        [("g", 1, some ⟨"f", 2⟩, some ⟨"g", 1⟩), ("f", 1, some ⟨"g", 1⟩, some ⟨"f", 2⟩),
          ("g", 2, none, none)] ∧
      ∃ sites, scope.ListsCalls (moduleOf callingForms) sites := by
  have indexed : ModuleScope.ofModule (fun _ => false) (moduleOf callingForms) = .ok _ := rfl
  exact ⟨_, indexed, rfl, references_record_own_calls indexed⟩

end StyleAudit
