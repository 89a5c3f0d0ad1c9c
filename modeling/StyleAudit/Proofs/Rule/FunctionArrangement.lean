import StyleAudit.Proofs.Module.Layout
import StyleAudit.Proofs.Module.Rearranged
import StyleAudit.Proofs.Rule.FunctionOrder

/-!
# Arranging functions below their callers

The rule on the order of functions can always be met: where each helper is
called, directly or indirectly, from a function that is not a helper, and no call
may bind to two functions, the functions of a module can be laid out so that it
finds nothing (`exists_rearranges_check_eq_nil`). The layout is found once, from
the calls alone. Which caller of a helper is the first one is then what the
layout makes it.
-/

namespace StyleAudit

variable {isNested : String → Bool} {m : Node} {scope rebuilt : ModuleScope}

namespace CallGraph

variable {caller callee : FunctionKey}

theorem contains_callers (scope : ModuleScope) (caller callee : FunctionKey) :
    ((ofScope scope).callers callee).contains caller = (ofScope scope).hasEdge caller callee := by
  rw [Bool.eq_iff_iff, List.contains_iff_mem, mem_callers_ofScope, hasEdge_iff]

/-- A caller that no function above it shares is the first one. -/
theorem firstCaller?_eq_some_of_split {before after : List FunctionKey}
    (split : scope.functions.map (·.key) = before ++ caller :: after)
    (apart : caller ≠ callee) (calls : (ofScope scope).hasEdge caller callee = true)
    (notBefore : ∀ earlier ∈ before, (ofScope scope).hasEdge earlier callee = false) :
    (ofScope scope).firstCaller? callee = some caller := by
  simp only [firstCaller?, contains_callers]
  refine List.find?_eq_some_iff_append.mpr ⟨?_, before, after, split, ?_⟩
  · rw [calls, bne_iff_ne.mpr apart]
    rfl
  · intro earlier member
    rw [notBefore earlier member, Bool.and_false]
    rfl

theorem declared_of_hasEdge (indexed : ModuleScope.ofModule isNested m = .ok scope)
    (calls : (ofScope scope).hasEdge caller callee = true) :
    caller ∈ scope.functions.map (·.key) ∧ callee ∈ scope.functions.map (·.key) := by
  obtain ⟨ref, member, stands, binds⟩ := hasEdge_iff.mp calls
  have refers := refersTo_of_ofModule indexed
  exact ⟨refers.callers ref member caller stands, refers.resolved ref member callee binds⟩

end CallGraph

namespace FunctionOrder

/-! ## Helpers and roots -/

/-- A helper is a private function that another function calls. -/
def isHelper (scope : ModuleScope) (group : FunctionGroup) : Bool :=
  group.isPrivate && ((CallGraph.ofScope scope).firstCaller? group.key).isSome

def helperKeys (scope : ModuleScope) : List FunctionKey :=
  (scope.functions.filter (isHelper scope)).map (·.key)

def rootKeys (scope : ModuleScope) : List FunctionKey :=
  (scope.functions.filter fun group => !isHelper scope group).map (·.key)

/-- Each helper is called, directly or indirectly, from a function that is public
or that no other function calls. -/
def Grounded (scope : ModuleScope) : Prop :=
  ∀ helper ∈ scope.functions, helper.isPrivate = true →
    (∃ caller, (CallGraph.ofScope scope).hasEdge caller helper.key = true ∧
      caller ≠ helper.key) →
    ∃ root ∈ scope.functions,
      (root.isPrivate = false ∨
        ∀ caller, (CallGraph.ofScope scope).hasEdge caller root.key = true →
          caller = root.key) ∧
      Relation.ReflTransGen
        (fun caller callee => (CallGraph.ofScope scope).hasEdge caller callee = true)
        root.key helper.key

section Helpers

variable {group : FunctionGroup} {key : FunctionKey}

/-- A helper is a private function that another function calls. -/
theorem isHelper_iff (indexed : ModuleScope.ofModule isNested m = .ok scope) :
    isHelper scope group = true ↔ group.isPrivate = true ∧
      ∃ caller, (CallGraph.ofScope scope).hasEdge caller group.key = true ∧
        caller ≠ group.key := by
  rw [isHelper, Bool.and_eq_true, CallGraph.firstCaller?, List.find?_isSome]
  simp only [CallGraph.contains_callers, Bool.and_eq_true, bne_iff_ne]
  refine and_congr_right fun _ => ?_
  constructor
  · rintro ⟨caller, _, apart, calls⟩
    exact ⟨caller, calls, apart⟩
  · rintro ⟨caller, calls, apart⟩
    exact ⟨caller, (CallGraph.declared_of_hasEdge indexed calls).1, apart, calls⟩

theorem mem_helperKeys_iff (index : Indexes (clausesOf m.children) scope.functions)
    (member : group ∈ scope.functions) :
    group.key ∈ helperKeys scope ↔ isHelper scope group = true := by
  rw [helperKeys, List.mem_map]
  constructor
  · rintro ⟨other, found, same⟩
    obtain ⟨otherMember, helps⟩ := List.mem_filter.mp found
    rw [← index.eq_of_key_eq otherMember member same]
    exact helps
  · intro helps
    exact ⟨group, List.mem_filter.mpr ⟨member, helps⟩, rfl⟩

theorem rootKeys_append_helperKeys_perm (scope : ModuleScope) :
    (rootKeys scope ++ helperKeys scope).Perm (scope.functions.map (·.key)) := by
  rw [rootKeys, helperKeys, ← List.map_append]
  apply List.Perm.map
  exact List.perm_append_comm.trans (List.filter_append_perm (isHelper scope) scope.functions)

end Helpers

/-! ## The layout of a module -/

/-- The functions of a module, each helper below its callers: first callers
claim their helpers. -/
def arrangedKeys (scope : ModuleScope) : List FunctionKey :=
  layout (CallGraph.ofScope scope).hasEdge (rootKeys scope) (helperKeys scope)

theorem nodup_rootKeys_append_helperKeys
    (index : Indexes (clausesOf m.children) scope.functions) :
    (rootKeys scope ++ helperKeys scope).Nodup :=
  (rootKeys_append_helperKeys_perm scope).nodup_iff.mpr index.keys_nodup

/-- The arrangement has all functions of the module, each once. -/
theorem arrangedKeys_perm (indexed : ModuleScope.ofModule isNested m = .ok scope)
    (grounded : Grounded scope) :
    (arrangedKeys scope).Perm (scope.functions.map (·.key)) := by
  have index := indexes_of_ofModule indexed
  have parts := rootKeys_append_helperKeys_perm scope
  refine (layout_perm (nodup_rootKeys_append_helperKeys index) ?_ ?_).trans parts
  · intro caller callee calls
    exact parts.mem_iff.mpr (CallGraph.declared_of_hasEdge indexed calls).2
  · intro key isKey
    obtain ⟨helper, found, rfl⟩ := List.mem_map.mp isKey
    obtain ⟨member, helps⟩ := List.mem_filter.mp found
    obtain ⟨hidden, called⟩ := (isHelper_iff indexed).mp helps
    obtain ⟨root, rootMember, isRoot, path⟩ := grounded helper member hidden called
    refine ⟨root.key, ?_, path⟩
    refine List.mem_map_of_mem (List.mem_filter.mpr ⟨rootMember, ?_⟩)
    rw [Bool.not_eq_true', ← Bool.not_eq_true, isHelper_iff indexed]
    rintro ⟨rootHidden, caller, calls, apart⟩
    rcases isRoot with exported | uncalled
    · rw [exported] at rootHidden
      cases rootHidden
    · exact apart (uncalled caller calls)

/-- In the layout each helper stands below the first function that calls it. -/
theorem followsCaller_arrangedKeys (indexed : ModuleScope.ofModule isNested m = .ok scope)
    (grounded : Grounded scope) {key : FunctionKey} (member : key ∈ helperKeys scope) :
    FollowsCaller (CallGraph.ofScope scope).hasEdge (helperKeys scope) (arrangedKeys scope)
      key := by
  have parts := List.nodup_append.mp
    (nodup_rootKeys_append_helperKeys (indexes_of_ofModule indexed))
  refine followsCaller_layout ?_ member ?_
  · intro helper isHelper isRoot
    exact parts.2.2 helper isRoot helper isHelper rfl
  · have declared := (rootKeys_append_helperKeys_perm scope).mem_iff.mp
      (List.mem_append_right _ member)
    exact (arrangedKeys_perm indexed grounded).mem_iff.mpr declared

/-! ## Functions in the order of a layout -/

section Places

variable {group helper : FunctionGroup} {before after : List FunctionKey}

theorem position_eq_length (index : Indexes (clausesOf m.children) scope.functions)
    (member : group ∈ scope.functions)
    (split : scope.functions.map (·.key) = before ++ group.key :: after) :
    group.position = before.length := by
  have here : (scope.functions.map (·.key))[before.length]? = some group.key := by
    rw [split]
    simp
  rw [List.getElem?_map, Option.map_eq_some_iff] at here
  obtain ⟨other, found, same⟩ := here
  rw [← index.eq_of_key_eq (List.mem_of_getElem? found) member same]
  exact index.position_eq_of_getElem? found

theorem position_lt_length_iff (index : Indexes (clausesOf m.children) scope.functions)
    (member : group ∈ scope.functions)
    (split : scope.functions.map (·.key) = before ++ after) :
    group.position < before.length ↔ group.key ∈ before := by
  have here : (before ++ after)[group.position]? = some group.key := by
    rw [← split, List.getElem?_map, index.getElem?_position member, Option.map_some]
  constructor
  · intro inside
    rw [List.getElem?_append_left inside] at here
    exact List.mem_of_getElem? here
  · intro isBefore
    by_contra outside
    rw [List.getElem?_append_right (Nat.not_lt.mp outside)] at here
    have once := split ▸ index.keys_nodup
    exact (List.nodup_append.mp once).2.2 _ isBefore _ (List.mem_of_getElem? here) rfl

/-- A helper stands below its first caller, and what is between the two are
helpers that no function above that caller calls. -/
structure FollowsFirstCaller (scope : ModuleScope) (caller helper : FunctionGroup) : Prop where
  first : (CallGraph.ofScope scope).firstCaller? helper.key = some caller.key
  below : caller.position < helper.position
  between : ∀ other ∈ scope.functions,
    caller.position < other.position → other.position < helper.position →
      isHelper scope other = true ∧
        ∀ earlier ∈ scope.functions, earlier.position < caller.position →
          (CallGraph.ofScope scope).hasEdge earlier.key other.key = false

/-- A function that follows its caller in the arrangement follows its first caller in
the rebuilt module. -/
theorem exists_followsFirstCaller (index : Indexes (clausesOf m.children) scope.functions)
    (member : helper ∈ scope.functions)
    (follows : FollowsCaller (CallGraph.ofScope scope).hasEdge (helperKeys scope)
      (scope.functions.map (·.key)) helper.key) :
    ∃ caller ∈ scope.functions, FollowsFirstCaller scope caller helper := by
  obtain ⟨before, callerKey, between, after, split, calls, notBefore, inBetween⟩ := follows
  have listed : callerKey ∈ scope.functions.map (·.key) := by
    rw [split]
    simp
  obtain ⟨caller, callerMember, rfl⟩ := List.mem_map.mp listed
  have callerAt := position_eq_length index callerMember split
  have splitAtHelper : scope.functions.map (·.key) =
      (before ++ caller.key :: between) ++ helper.key :: after := by
    rw [split]
    simp
  have helperAt := position_eq_length index member splitAtHelper
  rw [List.length_append, List.length_cons] at helperAt
  refine ⟨caller, callerMember, ?_, by omega, ?_⟩
  · refine CallGraph.firstCaller?_eq_some_of_split split ?_ calls notBefore
    intro same
    have again := index.eq_of_key_eq callerMember member same
    rw [again] at callerAt
    omega
  · intro other otherMember below above
    have inside : other.key ∈ before ++ caller.key :: between := by
      rw [← position_lt_length_iff index otherMember splitAtHelper, List.length_append,
        List.length_cons]
      omega
    have notAbove : other.key ∉ before := by
      rw [← position_lt_length_iff index otherMember split]
      omega
    have isOther : other.key ≠ caller.key := by
      intro same
      rw [index.eq_of_key_eq otherMember callerMember same] at below
      exact Nat.lt_irrefl _ below
    have isBetween : other.key ∈ between :=
      (List.mem_cons.mp ((List.mem_append.mp inside).resolve_left notAbove)).resolve_left isOther
    obtain ⟨helps, uncalled⟩ := inBetween other.key isBetween
    refine ⟨(mem_helperKeys_iff index otherMember).mp helps, ?_⟩
    intro earlier earlierMember isAbove
    apply uncalled
    rw [← position_lt_length_iff index earlierMember split]
    omega

/-- The rule finds nothing in a module whose functions are laid out. -/
theorem check_eq_nil_of_followsCaller (indexed : ModuleScope.ofModule isNested m = .ok scope)
    (laidOut : ∀ key ∈ helperKeys scope,
      FollowsCaller (CallGraph.ofScope scope).hasEdge (helperKeys scope)
        (scope.functions.map (·.key)) key) :
    check scope (CallGraph.ofScope scope) = [] := by
  have index := indexes_of_ofModule indexed
  have follows : ∀ helper ∈ scope.functions, isHelper scope helper = true →
      ∃ caller ∈ scope.functions, FollowsFirstCaller scope caller helper := by
    intro helper member helps
    exact exists_followsFirstCaller index member
      (laidOut helper.key ((mem_helperKeys_iff index member).mpr helps))
  rw [check_eq_nil_iff index]
  intro helper member hidden caller callerMember first
  have helps : isHelper scope helper = true := by
    rw [isHelper, hidden, first]
    rfl
  obtain ⟨found, foundMember, isFollowed⟩ := follows helper member helps
  have isCaller : found = caller := by
    apply index.eq_of_key_eq foundMember callerMember
    exact Option.some.inj (isFollowed.first.symm.trans first)
  subst isCaller
  refine ⟨isFollowed.below, ?_⟩
  intro other otherMember below above
  obtain ⟨otherHelps, uncalled⟩ := isFollowed.between other otherMember below above
  obtain ⟨claimer, claimerMember, claimed⟩ := follows other otherMember otherHelps
  rw [isHelper, Bool.and_eq_true] at otherHelps
  refine ⟨otherHelps.1, claimer, claimerMember, claimed.first, ?_, ?_⟩
  · -- A claimer above the caller would call a function between caller and helper.
    by_contra isAbove
    have calls := (CallGraph.ne_and_hasEdge_of_firstCaller? claimed.first).2
    rw [uncalled claimer claimerMember (Nat.not_le.mp isAbove)] at calls
    cases calls
  · exact Nat.lt_trans claimed.below above

end Places

/-! ## Rebuilt modules -/

theorem mem_helperKeys_of_sameUpToPlaces {other : Node} {others : ModuleScope}
    (indexed : ModuleScope.ofModule isNested m = .ok scope)
    (otherIndexed : ModuleScope.ofModule isNested other = .ok others)
    (sameCalls : (CallGraph.ofScope others).hasEdge = (CallGraph.ofScope scope).hasEdge)
    (same : scope.SameUpToPlaces others) {key : FunctionKey} (member : key ∈ helperKeys scope) :
    key ∈ helperKeys others := by
  obtain ⟨group, found, rfl⟩ := List.mem_map.mp member
  obtain ⟨groupMember, helps⟩ := List.mem_filter.mp found
  obtain ⟨hidden, called⟩ := (isHelper_iff indexed).mp helps
  obtain ⟨moved, movedMember, movedSame⟩ := same.functions group groupMember
  have movedHelps : isHelper others moved = true := by
    rw [isHelper_iff otherIndexed, FunctionGroup.isPrivate, movedSame.visibility, movedSame.key,
      sameCalls]
    exact ⟨hidden, called⟩
  rw [← movedSame.key]
  exact List.mem_map_of_mem (List.mem_filter.mpr ⟨movedMember, movedHelps⟩)

theorem exists_perm_map_eq {groups : List FunctionGroup} {keys : List FunctionKey}
    (perm : keys.Perm (groups.map (·.key))) :
    ∃ arranged : List FunctionGroup, keys = arranged.map (·.key) ∧ arranged.Perm groups := by
  have composed := congrFun₂ (List.eq_map_comp_perm fun group : FunctionGroup => group.key)
    keys groups
  exact composed.mpr perm

/-- The functions of every module that can be indexed can be arranged, with all
clauses of a function together and all other forms in their places, so that the
rule finds nothing in the rebuilt module, provided that no number of arguments is
accepted by two functions of one name and that each private function called by
another one is reached from a public function or one that no other function
calls. -/
theorem exists_rearranges_check_eq_nil
    (indexed : ModuleScope.ofModule isNested m = .ok scope) (apart : scope.AcceptsApart)
    (grounded : Grounded scope) :
    ∃ arranged forms rebuilt, arranged.Perm scope.functions ∧ m.Rearranges arranged forms ∧
      ModuleScope.ofModule isNested { m with children := forms } = .ok rebuilt ∧
      check rebuilt (CallGraph.ofScope rebuilt) = [] := by
  have index := indexes_of_ofModule indexed
  obtain ⟨arranged, sameKeys, perm⟩ := exists_perm_map_eq (arrangedKeys_perm indexed grounded)
  obtain ⟨forms, rearranges⟩ := exists_rearranges index perm
  obtain ⟨rebuilt, indexedAgain⟩ := exists_ofModule_of_perm indexed rearranges.perm
  refine ⟨arranged, forms, rebuilt, perm, rearranges, indexedAgain, ?_⟩
  have sameCalls := hasEdge_eq_of_perm indexed indexedAgain apart rearranges.perm
  obtain ⟨there, back⟩ := sameUpToPlaces_of_perm indexed indexedAgain rearranges.perm
  have order := keys_of_ofModule_of_rearranges indexed perm rearranges indexedAgain
  apply check_eq_nil_of_followsCaller indexedAgain
  intro key member
  rw [sameCalls, order, ← sameKeys]
  have wasHelper :=
    mem_helperKeys_of_sameUpToPlaces indexedAgain indexed sameCalls.symm back member
  refine (followsCaller_arrangedKeys indexed grounded wasHelper).mono ?_
  intro other
  exact mem_helperKeys_of_sameUpToPlaces indexed indexedAgain sameCalls there

/-- Two helpers that call each other stand above the public function that calls
both. -/
def tangledForms : List Node :=
  [functionForm 2 "g" "private" [] [callForm 3 .null "k" []],
    functionForm 5 "k" "private" [] [callForm 6 .null "g" []],
    functionForm 8 "f" "public" [] [callForm 9 .null "k" [], callForm 10 .null "g" []]]

theorem exists_rearranges_check_eq_nil_tangled :
    ∃ scope, ModuleScope.ofModule (fun _ => false) (moduleOf tangledForms) = .ok scope ∧
      check scope (CallGraph.ofScope scope) ≠ [] ∧ scope.AcceptsApart ∧ Grounded scope ∧
      ∃ arranged forms rebuilt, arranged.Perm scope.functions ∧
        (moduleOf tangledForms).Rearranges arranged forms ∧
        ModuleScope.ofModule (fun _ => false) { moduleOf tangledForms with children := forms } =
          .ok rebuilt ∧
        check rebuilt (CallGraph.ofScope rebuilt) = [] := by
  obtain ⟨scope, indexed, found, names, root, member, exported, calls⟩ : ∃ scope,
      ModuleScope.ofModule (fun _ => false) (moduleOf tangledForms) = .ok scope ∧
        check scope (CallGraph.ofScope scope) ≠ [] ∧
        (scope.functions.map (·.key.name)).Nodup ∧
        ∃ root ∈ scope.functions, root.isPrivate = false ∧
          ∀ helper ∈ scope.functions, helper.isPrivate = true →
            (CallGraph.ofScope scope).hasEdge root.key helper.key = true :=
    ⟨_, rfl, by decide, by decide, by decide⟩
  have apart := acceptsApart_of_nodup_names names
  have grounded : Grounded scope := by
    intro helper helperMember hidden _
    exact ⟨root, member, Or.inl exported,
      Relation.ReflTransGen.single (calls helper helperMember hidden)⟩
  exact ⟨scope, indexed, found, apart, grounded,
    exists_rearranges_check_eq_nil indexed apart grounded⟩

end FunctionOrder
end StyleAudit
