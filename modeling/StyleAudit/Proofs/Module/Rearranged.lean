import StyleAudit.Proofs.Module.CallAgreement
import StyleAudit.Proofs.Pipes.Scope

/-!
# Modules with rearranged functions

The function forms of a module can be put in another order: the clauses of a
function stay together, and all other forms stay in their places
(`Node.Rearranges`). Such a module can still be indexed, its functions are the
same up to their places, in the order in which their clauses now stand, and
where no number of arguments is accepted by two functions of one name the calls
between them are the same (`hasEdge_eq_of_perm`).
-/

namespace StyleAudit

variable {isNested : String → Bool} {m : Node} {scope rebuilt : ModuleScope}

/-! ## Function forms in another order -/

def isFunctionForm (form : Node) : Bool :=
  form.kind == .function

/-- The forms of the module in another order: the function forms are the clauses
of the given functions, those of one function together and in source order, and
every other form stays where it is. -/
structure Node.Rearranges (m : Node) (arranged : List FunctionGroup) (forms : List Node) :
    Prop where
  perm : forms.Perm m.children
  functions : forms.filter isFunctionForm =
    arranged.flatMap fun group => group.clauses.map (·.node)
  others : ∀ (position : Nat) (form : Node), form.kind ≠ .function →
    (forms[position]? = some form ↔ m.children[position]? = some form)

/-- The forms with the function forms among them replaced, one by one, by
others. -/
def refill : (forms functions : List Node) → List Node
  | [], _ => []
  | form :: rest, functions =>
    if isFunctionForm form then functions.headD form :: refill rest functions.tail
    else form :: refill rest functions

section Refill

variable {forms functions : List Node} {form : Node}

theorem isFunctionForm_headD (areFunctions : ∀ other ∈ functions, isFunctionForm other = true)
    (isFunction : isFunctionForm form = true) : isFunctionForm (functions.headD form) = true := by
  cases functions with
  | nil => exact isFunction
  | cons next others => exact areFunctions next List.mem_cons_self

/-- The function forms of a refilled module are those that it was refilled with. -/
theorem filter_refill (same : functions.length = (forms.filter isFunctionForm).length)
    (areFunctions : ∀ other ∈ functions, isFunctionForm other = true) :
    (refill forms functions).filter isFunctionForm = functions := by
  induction forms generalizing functions with
  | nil => exact (List.length_eq_zero_iff.mp same).symm
  | cons form rest inductionHypothesis =>
      rw [refill]
      by_cases isFunction : isFunctionForm form = true
      · rw [List.filter_cons_of_pos isFunction, List.length_cons] at same
        have replaced := isFunctionForm_headD areFunctions isFunction
        rw [if_pos isFunction, List.filter_cons_of_pos replaced]
        cases functions with
        | nil => cases same
        | cons next others =>
            rw [List.tail_cons, inductionHypothesis (Nat.succ.inj same)
              fun other member => areFunctions other (List.mem_cons_of_mem next member)]
            rfl
      · rw [List.filter_cons_of_neg isFunction] at same
        rw [if_neg isFunction, List.filter_cons_of_neg isFunction,
          inductionHypothesis same areFunctions]

theorem filter_not_refill (areFunctions : ∀ other ∈ functions, isFunctionForm other = true) :
    (refill forms functions).filter (fun form => !isFunctionForm form) =
      forms.filter fun form => !isFunctionForm form := by
  induction forms generalizing functions with
  | nil => rfl
  | cons form rest inductionHypothesis =>
      rw [refill]
      by_cases isFunction : isFunctionForm form = true
      · have replaced := isFunctionForm_headD areFunctions isFunction
        have later := inductionHypothesis fun other member =>
          areFunctions other (List.mem_of_mem_tail member)
        simp only [isFunction, if_true, List.filter_cons, replaced, Bool.not_true,
          Bool.false_eq_true, if_false, later]
      · simp only [isFunction, Bool.false_eq_true, if_false, List.filter_cons, Bool.not_false,
          if_true, inductionHypothesis areFunctions]

/-- Forms that are no functions keep their positions. -/
theorem getElem?_refill_iff (areFunctions : ∀ other ∈ functions, isFunctionForm other = true)
    {position : Nat} (isOther : isFunctionForm form = false) :
    (refill forms functions)[position]? = some form ↔ forms[position]? = some form := by
  induction forms generalizing functions position with
  | nil => rfl
  | cons first rest inductionHypothesis =>
      rw [refill]
      split
      · rename_i isFunction
        cases position with
        | zero =>
            have replaced := isFunctionForm_headD areFunctions isFunction
            rw [List.getElem?_cons_zero, List.getElem?_cons_zero, Option.some.injEq,
              Option.some.injEq]
            constructor
            · rintro rfl
              rw [isOther] at replaced
              cases replaced
            · rintro rfl
              rw [isOther] at isFunction
              cases isFunction
        | succ position =>
            rw [List.getElem?_cons_succ, List.getElem?_cons_succ]
            exact inductionHypothesis fun other member =>
              areFunctions other (List.mem_of_mem_tail member)
      · cases position with
        | zero => rfl
        | succ position =>
            rw [List.getElem?_cons_succ, List.getElem?_cons_succ]
            exact inductionHypothesis areFunctions

end Refill

/-! ## Clauses and function forms -/

section Clauses

variable {forms : List Node} {groups : List FunctionGroup} {group : FunctionGroup}

theorem map_node_clausesOf (forms : List Node) :
    (clausesOf forms).map (·.node) = forms.filter isFunctionForm := by
  have filtered : (forms.zipIdx.filter fun indexed => isFunctionForm indexed.1).map Prod.fst =
      forms.filter isFunctionForm := by
    rw [← List.zipIdx_map_fst 0 forms, List.filter_map, List.zipIdx_map_fst]
    rfl
  rw [← filtered, clausesOf, List.map_map]
  rfl

/-- Each function form is a clause of one function. -/
theorem clauses_perm (index : Indexes (clausesOf forms) groups) :
    (groups.flatMap (·.clauses)).Perm (clausesOf forms) := by
  have grouped := nodup_readForms index
  rw [readForms, List.map_append, List.map_flatMap] at grouped
  have groupedOnce : ((groups.flatMap (·.clauses)).map (·.position)).Nodup := by
    rw [List.map_flatMap]
    simpa only [List.map_map, Function.comp_def] using (List.nodup_append.mp grouped).1
  have listedOnce : ((clausesOf forms).map (·.position)).Nodup := by
    rw [List.Nodup, List.pairwise_map]
    exact (pairwise_position_clausesOf forms).imp Nat.ne_of_lt
  rw [List.perm_ext_iff_of_nodup groupedOnce.of_map listedOnce.of_map]
  intro clause
  rw [List.mem_flatMap]
  constructor
  · rintro ⟨group, member, listed⟩
    obtain ⟨found, isFunction, _⟩ := (index.mem_clauses_iff member).mp listed
    exact mem_clausesOf_iff.mpr ⟨found, isFunction⟩
  · intro listed
    obtain ⟨found, isFunction⟩ := mem_clausesOf_iff.mp listed
    exact (index.existsUnique_group clause found isFunction).exists

/-- The clauses of all functions are the function forms. -/
theorem clauseForms_perm (index : Indexes (clausesOf forms) groups) :
    (groups.flatMap fun group => group.clauses.map (·.node)).Perm
      (forms.filter isFunctionForm) := by
  have perm := (clauses_perm index).map (·.node)
  rw [List.map_flatMap, map_node_clausesOf] at perm
  exact perm

/-- The key of the function that a form declares. -/
def Node.functionKey (form : Node) : FunctionKey :=
  Clause.key ⟨0, form⟩

theorem mem_clauseForms_of_group_iff (index : Indexes (clausesOf forms) groups)
    (member : group ∈ groups) {form : Node} :
    form ∈ group.clauses.map (·.node) ↔
      form ∈ forms ∧ form.kind = .function ∧ form.functionKey = group.key := by
  rw [List.mem_map]
  constructor
  · rintro ⟨clause, listed, rfl⟩
    obtain ⟨found, isFunction, sameKey⟩ := (index.mem_clauses_iff member).mp listed
    exact ⟨List.mem_of_getElem? found, isFunction, sameKey⟩
  · rintro ⟨isForm, isFunction, sameKey⟩
    obtain ⟨position, found⟩ := List.mem_iff_getElem?.mp isForm
    exact ⟨⟨position, form⟩, (index.mem_clauses_iff member).mpr ⟨found, isFunction, sameKey⟩, rfl⟩

end Clauses

/-- The functions of a module can be arranged in any order. -/
theorem exists_rearranges {groups arranged : List FunctionGroup}
    (index : Indexes (clausesOf m.children) groups) (perm : arranged.Perm groups) :
    ∃ forms, m.Rearranges arranged forms := by
  have clauseForms := (perm.flatMap_right fun group =>
    group.clauses.map (·.node)).trans (clauseForms_perm index)
  have areFunctions : ∀ form ∈ arranged.flatMap fun group => group.clauses.map (·.node),
      isFunctionForm form = true := by
    intro form member
    exact (List.mem_filter.mp (clauseForms.mem_iff.mp member)).2
  have functions := filter_refill clauseForms.length_eq areFunctions
  refine ⟨refill m.children (arranged.flatMap fun group => group.clauses.map (·.node)), ?_,
    functions, ?_⟩
  · have parts := List.filter_append_perm isFunctionForm
    refine (parts _).symm.trans (List.Perm.trans ?_ (parts m.children))
    rw [functions, filter_not_refill areFunctions]
    exact clauseForms.append_right _
  · intro position form isOther
    exact getElem?_refill_iff areFunctions (beq_eq_false_iff_ne.mpr isOther)

/-! ## Functions of permuted forms -/

/-- Two functions are the same but for their places and those of their
clauses. -/
structure FunctionGroup.SameUpToPlaces (group other : FunctionGroup) : Prop where
  key : other.key = group.key
  minArity : other.minArity = group.minArity
  visibility : other.visibility = group.visibility
  forms : ∀ form, form ∈ other.clauses.map (·.node) ↔ form ∈ group.clauses.map (·.node)

theorem FunctionGroup.HasLeastArity.le_of_subset {group other : FunctionGroup}
    (least : group.HasLeastArity) (otherLeast : other.HasLeastArity)
    (subset : ∀ form ∈ other.clauses.map (·.node), form ∈ group.clauses.map (·.node)) :
    group.minArity ≤ other.minArity := by
  obtain ⟨reached, reachedMember, same⟩ := otherLeast.2
  obtain ⟨clause, member, sameForm⟩ :=
    List.mem_map.mp (subset _ (List.mem_map_of_mem reachedMember))
  have sameArity : clause.minArity = reached.minArity := by
    rw [Clause.minArity, Clause.minArity, Clause.params, Clause.params, sameForm]
  rw [same, ← sameArity]
  exact least.1 clause member

section Permuted

variable {forms others : List Node} {groups otherGroups : List FunctionGroup}

/-- However the forms are arranged, each function comes back with its clauses up to
their places. -/
theorem exists_sameUpToPlaces (index : Indexes (clausesOf forms) groups)
    (otherIndex : Indexes (clausesOf others) otherGroups) (perm : others.Perm forms)
    {group : FunctionGroup} (member : group ∈ groups) :
    ∃ other ∈ otherGroups, group.SameUpToPlaces other := by
  have firstListed : group.first ∈ group.clauses := List.mem_cons_self
  obtain ⟨isForm, isFunction, sameKey⟩ :=
    (mem_clauseForms_of_group_iff index member).mp (List.mem_map_of_mem firstListed)
  obtain ⟨position, found⟩ := List.mem_iff_getElem?.mp (perm.mem_iff.mpr isForm)
  obtain ⟨other, otherMember, otherKey⟩ := List.mem_map.mp
    (otherIndex.declared ⟨position, group.first.node⟩ (mem_clausesOf_iff.mpr ⟨found, isFunction⟩))
  have key : other.key = group.key := otherKey.trans sameKey
  have sameForms : ∀ form,
      form ∈ other.clauses.map (·.node) ↔ form ∈ group.clauses.map (·.node) := by
    intro form
    rw [mem_clauseForms_of_group_iff index member,
      mem_clauseForms_of_group_iff otherIndex otherMember, perm.mem_iff, key]
  refine ⟨other, otherMember, key, ?_, ?_, sameForms⟩
  · exact Nat.le_antisymm
      ((otherIndex.leastArity other otherMember).le_of_subset (index.leastArity group member)
        fun form => (sameForms form).mpr)
      ((index.leastArity group member).le_of_subset (otherIndex.leastArity other otherMember)
        fun form => (sameForms form).mp)
  · obtain ⟨clause, listed, sameForm⟩ :=
      List.mem_map.mp ((sameForms _).mpr (List.mem_map_of_mem firstListed))
    rw [← otherIndex.visible other otherMember clause listed,
      ← index.visible group member group.first firstListed, Clause.visibility, Clause.visibility,
      sameForm]

theorem exists_groupClauses_of_perm (grouped : groupClauses (clausesOf forms) = .ok groups)
    (perm : others.Perm forms) : ∃ regrouped, groupClauses (clausesOf others) = .ok regrouped := by
  cases result : groupClauses (clausesOf others) with
  | ok regrouped => exact ⟨regrouped, rfl⟩
  | error fault =>
      obtain ⟨clause, found, _⟩ := groupClauses_eq_error_iff.mp result
      have mixes : MixesVisibility others := exists_find?_differsFromFirst_iff.mp ⟨clause, found⟩
      obtain ⟨other, otherFound⟩ := exists_find?_differsFromFirst_iff.mpr (mixes.of_perm perm)
      rw [groupClauses_eq_error_iff.mpr ⟨other, otherFound, rfl⟩] at grouped
      cases grouped

end Permuted

/-- The imports of a module can still be read when its forms are permuted. -/
theorem exists_imports_of_perm {forms : List Node} (perm : forms.Perm m.children)
    {imports : List ImportDecl} (read : (importsOf m).mapM ImportDecl.ofDirective = .ok imports) :
    ∃ decls, (importsOf { m with children := forms }).mapM ImportDecl.ofDirective = .ok decls := by
  have reads : ∀ directive ∈ importsOf m, ReadsImport directive := by
    intro directive member
    obtain ⟨decl, _, isRead⟩ := Outcome.exists_of_forall₂_of_mem_left
      (Outcome.mapM_eq_ok_iff.mp read) member
    exact ofDirective_eq_ok_iff.mp ⟨decl, isRead⟩
  have moved : ((importsOf { m with children := forms }).map Directive.unplaced).Perm
      ((importsOf m).map Directive.unplaced) := by
    rw [importsOf_unplaced, importsOf_unplaced]
    exact (perm.flatMap_right _).filter _
  simp only [Outcome.mapM_eq_ok_iff, Outcome.exists_forall₂_iff, ofDirective_eq_ok_iff]
  intro directive member
  obtain ⟨other, otherMember, same⟩ :=
    List.mem_map.mp (moved.mem_iff.mp (List.mem_map_of_mem member))
  -- Where an import stands does not decide whether it can be read.
  have blind : ∀ given : Directive, ReadsImport given.unplaced ↔ ReadsImport given :=
    fun _ => Iff.rfl
  rw [← blind, ← same, blind]
  exact reads other otherMember

/-- A module can still be indexed when its forms are permuted. -/
theorem exists_ofModule_of_perm (indexed : ModuleScope.ofModule isNested m = .ok scope)
    {forms : List Node} (perm : forms.Perm m.children) :
    ∃ rebuilt, ModuleScope.ofModule isNested { m with children := forms } = .ok rebuilt := by
  obtain ⟨isModule, functions, grouped, imports, read, _⟩ := ofModule_eq_ok_iff.mp indexed
  obtain ⟨regrouped, groupedAgain⟩ := exists_groupClauses_of_perm grouped perm
  obtain ⟨decls, readAgain⟩ := exists_imports_of_perm perm read
  exact ⟨_, ofModule_eq_ok_iff.mpr ⟨isModule, regrouped, groupedAgain, decls, readAgain, rfl⟩⟩

/-! ## The order of the functions -/

theorem eraseDups_concat (keys : List FunctionKey) (last : FunctionKey) :
    (keys ++ [last]).eraseDups = keys.eraseDups ++ if last ∈ keys then [] else [last] := by
  rw [List.eraseDups_append]
  by_cases listed : last ∈ keys
  · simp [List.removeAll, listed]
  · simp [List.removeAll, listed, List.eraseDups_cons]

/-- A clause adds the key of its function unless the function is known. -/
theorem keys_of_insertClause {groups extended : List FunctionGroup} {clause : Clause}
    (inserted : insertClause groups clause = .ok extended) :
    extended.map (·.key) =
      groups.map (·.key) ++ if clause.key ∈ groups.map (·.key) then [] else [clause.key] := by
  rw [insertClause] at inserted
  cases found : groups.find? (·.key == clause.key) with
  | none =>
      rw [found] at inserted
      cases inserted
      have isNew : clause.key ∉ groups.map (·.key) := by
        intro member
        obtain ⟨group, groupMember, same⟩ := List.mem_map.mp member
        exact List.find?_eq_none.mp found group groupMember (beq_iff_eq.mpr same)
      rw [if_neg isNew, List.map_append]
      rfl
  | some group =>
      rw [found] at inserted
      simp only at inserted
      have isKnown : clause.key ∈ groups.map (·.key) :=
        List.mem_map.mpr ⟨group, mem_and_key_of_find? found⟩
      split at inserted
      · cases inserted
        rw [if_pos isKnown, List.append_nil, List.map_map]
        refine List.map_congr_left fun other _ => ?_
        rw [Function.comp_apply]
        split <;> rfl
      · cases inserted

/-- Functions stand in the order of their first clauses. -/
theorem keys_of_groupClauses {clauses : List Clause} {groups : List FunctionGroup}
    (grouped : groupClauses clauses = .ok groups) :
    groups.map (·.key) = (clauses.map (·.key)).eraseDups := by
  induction clauses using List.reverseRecOn generalizing groups with
  | nil =>
      cases grouped
      rfl
  | append_singleton earlier clause inductionHypothesis =>
      rw [groupClauses, List.foldlM_append] at grouped
      obtain ⟨before, groupedBefore, last⟩ := Outcome.bind_eq_ok_iff.mp grouped
      rw [List.foldlM_cons] at last
      obtain ⟨extended, inserted, same⟩ := Outcome.bind_eq_ok_iff.mp last
      cases same
      have keysBefore := inductionHypothesis groupedBefore
      have sameKeys : clause.key ∈ before.map (·.key) ↔ clause.key ∈ earlier.map (·.key) := by
        rw [keysBefore, List.mem_eraseDups]
      rw [keys_of_insertClause inserted, List.map_append, List.map_singleton, eraseDups_concat,
        ← keysBefore]
      simp only [sameKeys]

/-- Of blocks of one label each, the labels are left. -/
theorem eraseDups_flatMap_of_labels {block label : Type} [BEq label] [LawfulBEq label]
    {blocks : List block} {labelOf : block → label} {labels : block → List label}
    (once : (blocks.map labelOf).Nodup) (filled : ∀ given ∈ blocks, labels given ≠ [])
    (labelled : ∀ given ∈ blocks, ∀ found ∈ labels given, found = labelOf given) :
    (blocks.flatMap labels).eraseDups = blocks.map labelOf := by
  induction blocks with
  | nil => rfl
  | cons first rest inductionHypothesis =>
      rw [List.map_cons, List.nodup_cons] at once
      have later := inductionHypothesis once.2
        (fun given member => filled given (List.mem_cons_of_mem first member))
        (fun given member => labelled given (List.mem_cons_of_mem first member))
      have ofFirst := labelled first List.mem_cons_self
      rw [List.flatMap_cons, List.map_cons]
      cases found : labels first with
      | nil => exact absurd found (filled first List.mem_cons_self)
      | cons head others =>
          rw [found] at ofFirst
          have isLabel : head = labelOf first := ofFirst head List.mem_cons_self
          have repeated : others.filter (fun other => !other == head) = [] := by
            rw [List.filter_eq_nil_iff]
            intro other member
            rw [ofFirst other (List.mem_cons_of_mem head member), isLabel]
            simp
          have kept : (rest.flatMap labels).filter (fun other => !other == head) =
              rest.flatMap labels := by
            rw [List.filter_eq_self]
            intro other member
            obtain ⟨given, givenMember, inBlock⟩ := List.mem_flatMap.mp member
            rw [labelled given (List.mem_cons_of_mem first givenMember) other inBlock, isLabel]
            have apart : labelOf given ≠ labelOf first := by
              intro same
              exact once.1 (same ▸ List.mem_map_of_mem givenMember)
            simp [apart]
          rw [List.cons_append, List.eraseDups_cons, List.filter_append, repeated, List.nil_append,
            kept, later, isLabel]

/-- The functions of a rearranged module stand in the order in which they are
arranged. -/
theorem keys_of_rearranges {groups regrouped arranged : List FunctionGroup} {forms : List Node}
    (index : Indexes (clausesOf m.children) groups) (perm : arranged.Perm groups)
    (rearranges : m.Rearranges arranged forms)
    (grouped : groupClauses (clausesOf forms) = .ok regrouped) :
    regrouped.map (·.key) = arranged.map (·.key) := by
  have keys : (clausesOf forms).map (·.key) =
      arranged.flatMap fun group => group.clauses.map (·.key) := by
    have byForm : ∀ clauses : List Clause,
        clauses.map (·.key) = (clauses.map (·.node)).map Node.functionKey := by
      intro clauses
      rw [List.map_map]
      rfl
    rw [byForm, map_node_clausesOf, rearranges.functions, List.map_flatMap]
    refine List.flatMap_congr fun group _ => ?_
    rw [byForm]
  rw [keys_of_groupClauses grouped, keys]
  apply eraseDups_flatMap_of_labels
  · exact (perm.map (·.key)).nodup_iff.mpr index.keys_nodup
  · intro group _ empty
    cases empty
  · intro group member key listed
    obtain ⟨clause, clauseMember, rfl⟩ := List.mem_map.mp listed
    exact index.key_of_mem_clauses (perm.mem_iff.mp member) clauseMember

theorem keys_of_ofModule_of_rearranges {arranged : List FunctionGroup} {forms : List Node}
    (indexed : ModuleScope.ofModule isNested m = .ok scope)
    (perm : arranged.Perm scope.functions) (rearranges : m.Rearranges arranged forms)
    (indexedAgain : ModuleScope.ofModule isNested { m with children := forms } = .ok rebuilt) :
    rebuilt.functions.map (·.key) = arranged.map (·.key) := by
  obtain ⟨_, regrouped, grouped, _, _, rfl⟩ := ofModule_eq_ok_iff.mp indexedAgain
  exact keys_of_rearranges (indexes_of_ofModule indexed) perm rearranges grouped

/-! ## Calls -/

/-- No number of arguments is accepted by two functions of the same name. -/
def ModuleScope.AcceptsApart (scope : ModuleScope) : Prop :=
  ∀ group ∈ scope.functions, ∀ other ∈ scope.functions, group.key.name = other.key.name →
    ∀ arity, group.accepts arity = true → other.accepts arity = true → group = other

theorem acceptsApart_of_nodup_names (names : (scope.functions.map (·.key.name)).Nodup) :
    scope.AcceptsApart := by
  intro group member other otherMember sameName _ _ _
  exact List.inj_on_of_nodup_map names member otherMember sameName

/-- Two scopes have the same functions up to their places. -/
structure ModuleScope.SameUpToPlaces (scope other : ModuleScope) : Prop where
  name : other.name = scope.name
  functions : ∀ group ∈ scope.functions, ∃ moved ∈ other.functions, group.SameUpToPlaces moved

theorem FunctionGroup.SameUpToPlaces.accepts_eq {group other : FunctionGroup}
    (same : group.SameUpToPlaces other) (arity : Nat) :
    other.accepts arity = group.accepts arity := by
  rw [accepts, accepts, same.minArity, same.key]

theorem sameUpToPlaces_of_perm {forms : List Node}
    (indexed : ModuleScope.ofModule isNested m = .ok scope)
    (indexedAgain : ModuleScope.ofModule isNested { m with children := forms } = .ok rebuilt)
    (perm : forms.Perm m.children) :
    scope.SameUpToPlaces rebuilt ∧ rebuilt.SameUpToPlaces scope := by
  have index := indexes_of_ofModule indexed
  have indexAgain := indexes_of_ofModule indexedAgain
  have sameName : rebuilt.name = scope.name :=
    (name_of_ofModule indexedAgain).trans (name_of_ofModule indexed).symm
  exact ⟨⟨sameName, fun _ member => exists_sameUpToPlaces index indexAgain perm member⟩,
    ⟨sameName.symm, fun _ member => exists_sameUpToPlaces indexAgain index perm.symm member⟩⟩

theorem ModuleScope.AcceptsApart.of_sameUpToPlaces {other : ModuleScope}
    (apart : scope.AcceptsApart) (same : other.SameUpToPlaces scope)
    (keysOnce : (other.functions.map (·.key)).Nodup) : other.AcceptsApart := by
  intro group member another anotherMember sameName arity accepts anotherAccepts
  obtain ⟨moved, movedMember, movedSame⟩ := same.functions group member
  obtain ⟨further, furtherMember, furtherSame⟩ := same.functions another anotherMember
  have names : moved.key.name = further.key.name := by
    rw [movedSame.key, furtherSame.key, sameName]
  have equal := apart moved movedMember further furtherMember names arity
    (by rw [movedSame.accepts_eq, accepts]) (by rw [furtherSame.accepts_eq, anotherAccepts])
  refine List.inj_on_of_nodup_map keysOnce member anotherMember ?_
  rw [← movedSame.key, equal, furtherSame.key]

/-- Which function a call binds to does not depend on the order of the functions
where each call has at most one. -/
theorem resolve?_of_sameUpToPlaces {other n : Node} {others : ModuleScope}
    (index : Indexes (clausesOf n.children) scope.functions)
    (otherIndex : Indexes (clausesOf other.children) others.functions)
    (apart : others.AcceptsApart) (same : scope.SameUpToPlaces others)
    {wanted : FunctionKey} {group : FunctionGroup} (found : scope.resolve? wanted = some group) :
    (others.resolve? wanted).map (·.key) = some group.key := by
  have binds := (resolve?_eq_some_iff index).mp found
  obtain ⟨moved, movedMember, movedSame⟩ := same.functions group binds.member
  have movedNamed : moved.key.name = wanted.name := by rw [movedSame.key, binds.named]
  have movedAccepts : moved.accepts wanted.arity = true := by
    rw [movedSame.accepts_eq, binds.accepts]
  obtain ⟨target, targetFound⟩ := Option.isSome_iff_exists.mp
    ((resolve?_isSome_iff otherIndex).mpr ⟨moved, movedMember, movedNamed, movedAccepts⟩)
  have targetBinds := (resolve?_eq_some_iff otherIndex).mp targetFound
  have isMoved := apart target targetBinds.member moved movedMember
    (targetBinds.named.trans movedNamed.symm) wanted.arity targetBinds.accepts movedAccepts
  rw [targetFound, Option.map_some, isMoved, movedSame.key]

theorem resolved_ofCall_eq_some_iff {moduleName : String} {functions : List FunctionGroup}
    {imports : List ImportDecl} {caller : Option FunctionKey} {call : Node} {arity : Nat}
    {callee : FunctionKey} :
    (CallRef.ofCall moduleName functions imports caller call arity).resolved = some callee ↔
      isLocalQualifier moduleName call.qualifier? = true ∧
        (resolveIn functions ⟨call.name, arity⟩).map (·.key) = some callee := by
  rw [CallRef.ofCall]
  by_cases addressed : isLocalQualifier moduleName call.qualifier? = true
  · simp only [addressed, if_true, true_and]
  · simp [addressed]

/-- One function calls another when a clause of it holds a call, outside of
nested modules, that is resolved to the other one. -/
theorem hasEdge_iff_exists_call (indexed : ModuleScope.ofModule isNested m = .ok scope)
    {caller callee : FunctionKey} :
    (CallGraph.ofScope scope).hasEdge caller callee = true ↔
      ∃ group ∈ scope.functions, group.key = caller ∧
        ∃ form ∈ group.clauses.map (·.node), ∃ called ∈ form.calls,
          scope.isLocal called.1.qualifier? = true ∧
            (scope.resolve? ⟨called.1.name, called.2⟩).map (·.key) = some callee := by
  obtain ⟨_, functions, _, imports, _, rfl⟩ := ofModule_eq_ok_iff.mp indexed
  rw [CallGraph.hasEdge_iff]
  constructor
  · rintro ⟨ref, member, stands, binds⟩
    rcases List.mem_append.mp member with inFunction | inForm
    · obtain ⟨group, groupMember, inGroup⟩ := List.mem_flatMap.mp inFunction
      obtain ⟨clause, listed, inClause⟩ := List.mem_flatMap.mp inGroup
      obtain ⟨called, isCalled, rfl⟩ := List.mem_map.mp inClause
      refine ⟨group, groupMember, Option.some.inj stands, clause.node,
        List.mem_map_of_mem listed, called, isCalled, ?_⟩
      exact resolved_ofCall_eq_some_iff.mp binds
    · obtain ⟨form, _, inside⟩ := List.mem_flatMap.mp inForm
      rw [(resolved_of_formReferences inside).1] at stands
      cases stands
  · rintro ⟨group, groupMember, rfl, _, isForm, called, isCalled, binds⟩
    obtain ⟨clause, listed, rfl⟩ := List.mem_map.mp isForm
    refine ⟨_, List.mem_append_left _ (List.mem_flatMap.mpr ⟨group, groupMember,
      List.mem_flatMap.mpr ⟨clause, listed, List.mem_map_of_mem isCalled⟩⟩), rfl, ?_⟩
    exact resolved_ofCall_eq_some_iff.mpr binds

/-- A call stays a call when forms are rearranged, if no two functions of a name
accept the same arities. -/
theorem hasEdge_of_sameUpToPlaces {other : Node} {others : ModuleScope}
    (indexed : ModuleScope.ofModule isNested m = .ok scope)
    (otherIndexed : ModuleScope.ofModule isNested other = .ok others)
    (apart : others.AcceptsApart) (same : scope.SameUpToPlaces others)
    {caller callee : FunctionKey}
    (called : (CallGraph.ofScope scope).hasEdge caller callee = true) :
    (CallGraph.ofScope others).hasEdge caller callee = true := by
  obtain ⟨group, member, rfl, form, isForm, call, isCalled, addressed, binds⟩ :=
    (hasEdge_iff_exists_call indexed).mp called
  obtain ⟨moved, movedMember, movedSame⟩ := same.functions group member
  obtain ⟨target, found, rfl⟩ := Option.map_eq_some_iff.mp binds
  refine (hasEdge_iff_exists_call otherIndexed).mpr ⟨moved, movedMember, movedSame.key, form,
    (movedSame.forms form).mpr isForm, call, isCalled, ?_, ?_⟩
  · rw [ModuleScope.isLocal, same.name]
    exact addressed
  · exact resolve?_of_sameUpToPlaces (indexes_of_ofModule indexed)
      (indexes_of_ofModule otherIndexed) apart same found

/-- The calls between functions do not depend on the order of the forms where no
call may bind to two functions. -/
theorem hasEdge_eq_of_perm {forms : List Node}
    (indexed : ModuleScope.ofModule isNested m = .ok scope)
    (indexedAgain : ModuleScope.ofModule isNested { m with children := forms } = .ok rebuilt)
    (apart : scope.AcceptsApart) (perm : forms.Perm m.children) :
    (CallGraph.ofScope rebuilt).hasEdge = (CallGraph.ofScope scope).hasEdge := by
  obtain ⟨there, back⟩ := sameUpToPlaces_of_perm indexed indexedAgain perm
  have apartAgain := apart.of_sameUpToPlaces back (indexes_of_ofModule indexedAgain).keys_nodup
  funext caller callee
  rw [Bool.eq_iff_iff]
  exact ⟨hasEdge_of_sameUpToPlaces indexedAgain indexed apart back,
    hasEdge_of_sameUpToPlaces indexed indexedAgain apartAgain there⟩

end StyleAudit
