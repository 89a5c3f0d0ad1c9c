import Mathlib.Data.List.TFAE
import Mathlib.Tactic.TFAE
import StyleAudit.Proofs.Module.CallGraph
import StyleAudit.Proofs.Module.Reference

/-!
# Scope and call graph agree

The edges of a call graph, the callees and callers in its tables, the calls and
callers of the functions of the scope and the calls in the clauses of the module
are the same relation between functions (`CallGraph.AgreesWith`). Both ends of
an edge are declared, positions are those of the functions, and the first caller
is the other caller with the least position.
-/

namespace StyleAudit

variable {isNested : String → Bool} {m : Node} {scope : ModuleScope}

/-! ## Calls between functions -/

/-- Some clause of a function holds, outside of nested modules, a call that is
resolved to another function. -/
def ModuleScope.HoldsCall (scope : ModuleScope) (m : Node) (caller callee : FunctionGroup) : Prop :=
  ∃ clause ∈ caller.clauses, ∃ way call, m.IsOwnCall (clause.position :: way) call ∧
    scope.isLocal call.qualifier? = true ∧
    scope.resolve? ⟨call.name, m.arityAt (clause.position :: way) call⟩ = some callee

theorem mem_callsOf_iff {caller callee : FunctionKey} :
    callee ∈ scope.callsOf caller ↔
      ∃ ref ∈ scope.references, ref.caller = some caller ∧ ref.resolved = some callee := by
  rw [ModuleScope.callsOf, List.mem_eraseDups, List.mem_filterMap]
  refine exists_congr fun ref => and_congr_right fun _ => ?_
  split <;> simp [*]

theorem mem_callersOf_iff {caller callee : FunctionKey} :
    caller ∈ scope.callersOf callee ↔
      ∃ ref ∈ scope.references, ref.caller = some caller ∧ ref.resolved = some callee := by
  rw [ModuleScope.callersOf, List.mem_eraseDups, List.mem_filterMap]
  refine exists_congr fun ref => and_congr_right fun _ => ?_
  split <;> simp [*]

/-- A path leads into a function form of a key when it leads into a clause of
the function of that key. -/
theorem callerAt_eq_some_iff (index : Indexes (clausesOf m.children) scope.functions)
    {group : FunctionGroup} (member : group ∈ scope.functions) {path : NodePath} :
    m.callerAt path = some group.key ↔
      ∃ clause ∈ group.clauses, ∃ way, path = clause.position :: way := by
  cases path with
  | nil => simp [Node.callerAt]
  | cons position way =>
      rw [Node.callerAt]
      constructor
      · intro found
        obtain ⟨form, isForm, here⟩ := Option.bind_eq_some_iff.mp found
        split at here
        · rename_i isFunction
          refine ⟨⟨position, form⟩, (index.mem_clauses_iff member).mpr ?_, way, rfl⟩
          exact ⟨isForm, isFunction, Option.some.inj here⟩
        · cases here
      · rintro ⟨clause, listed, _, same⟩
        obtain ⟨rfl, rfl⟩ := List.cons.inj same
        obtain ⟨isForm, isFunction, sameKey⟩ := (index.mem_clauses_iff member).mp listed
        rw [isForm, Option.bind_some, if_pos isFunction, ← sameKey]

/-- A call is resolved to a function exactly when it addresses the module and the
function takes its number of arguments. -/
theorem callSite_resolved_eq_some_iff (isNamed : scope.name = m.name)
    (index : Indexes (clausesOf m.children) scope.functions) {group : FunctionGroup}
    (member : group ∈ scope.functions) {path : NodePath} {call : Node} :
    (scope.callSite m path call).resolved = some group.key ↔
      scope.isLocal call.qualifier? = true ∧
        scope.resolve? ⟨call.name, m.arityAt path call⟩ = some group := by
  rw [callSite_resolved, ModuleScope.isLocal, isNamed]
  by_cases addressed : isLocalQualifier m.name call.qualifier? = true
  · rw [if_pos addressed, Option.map_eq_some_iff]
    constructor
    · rintro ⟨other, found, sameKey⟩
      rw [← index.eq_of_key_eq (mem_of_resolveIn found) member sameKey]
      exact ⟨addressed, found⟩
    · rintro ⟨_, found⟩
      exact ⟨group, found, rfl⟩
  · rw [if_neg addressed]
    simp [addressed]

/-- A call site joins two functions when a clause of the first one holds a call
that is resolved to the second one. -/
theorem exists_reference_iff_holdsCall (indexed : ModuleScope.ofModule isNested m = .ok scope)
    {caller callee : FunctionGroup} (callerMember : caller ∈ scope.functions)
    (calleeMember : callee ∈ scope.functions) :
    (∃ ref ∈ scope.references, ref.caller = some caller.key ∧ ref.resolved = some callee.key) ↔
      scope.HoldsCall m caller callee := by
  have index := indexes_of_ofModule indexed
  have isNamed := name_of_ofModule indexed
  obtain ⟨sites, listed, _, sited⟩ := exists_callSites indexed
  rw [← listed]
  constructor
  · rintro ⟨ref, member, stands, binds⟩
    obtain ⟨⟨path, _⟩, siteMember, rfl⟩ := List.mem_map.mp member
    obtain ⟨call, own, rfl⟩ := (sited path _).mp siteMember
    obtain ⟨clause, clauseListed, way, rfl⟩ := (callerAt_eq_some_iff index callerMember).mp stands
    obtain ⟨addressed, found⟩ :=
      (callSite_resolved_eq_some_iff isNamed index calleeMember).mp binds
    exact ⟨clause, clauseListed, way, call, own, addressed, found⟩
  · rintro ⟨clause, clauseListed, way, call, own, addressed, found⟩
    have siteMember := (sited _ _).mpr ⟨call, own, rfl⟩
    refine ⟨_, List.mem_map.mpr ⟨_, siteMember, rfl⟩, ?_, ?_⟩
    · exact (callerAt_eq_some_iff index callerMember).mpr ⟨clause, clauseListed, way, rfl⟩
    · exact (callSite_resolved_eq_some_iff isNamed index calleeMember).mpr ⟨addressed, found⟩

/-! ## First callers -/

namespace CallGraph

variable {graph : CallGraph} {key caller : FunctionKey}

/-- The first caller of a function is another function that calls it, and no
other one of these has a lesser position. -/
def IsFirstCaller (graph : CallGraph) (key caller : FunctionKey) : Prop :=
  caller ∈ graph.callers key ∧ caller ≠ key ∧
    ∃ position, graph.position? caller = some position ∧
      ∀ other ∈ graph.callers key, other ≠ key →
        ∃ place, graph.position? other = some place ∧ position ≤ place

theorem position?_of_getElem? (once : graph.order.Nodup) {position : Nat}
    (here : graph.order[position]? = some key) : graph.position? key = some position := by
  refine position?_eq_some_iff.mpr ⟨here, ?_⟩
  intro earlier before again
  obtain ⟨inside, there⟩ := List.getElem?_eq_some_iff.mp here
  obtain ⟨_, same⟩ := List.getElem?_eq_some_iff.mp again
  have sameIndex := (once.getElem_inj_iff).mp (same.trans there.symm)
  omega

/-- The first caller is the earliest other function that calls, and it is found if
there is one. -/
theorem firstCaller?_eq_some_iff
    (positioned : ∀ other ∈ graph.callers key, (graph.position? other).isSome) :
    graph.firstCaller? key = some caller ↔ graph.IsFirstCaller key caller := by
  constructor
  · intro found
    rw [firstCaller?, List.find?_eq_some_iff_getElem] at found
    obtain ⟨calls, place, inside, here, fail⟩ := found
    obtain ⟨isCaller, isOther⟩ := List.mem_filter.mp (mem_other_callers.mpr calls)
    obtain ⟨position, placed, notBehind⟩ :=
      exists_position_le (List.getElem?_eq_some_iff.mpr ⟨inside, here⟩)
    refine ⟨isCaller, bne_iff_ne.mp isOther, position, placed, ?_⟩
    -- A caller before the one that is found would have been found instead.
    intro other isAlso apart
    obtain ⟨otherPlace, otherPlaced⟩ := Option.isSome_iff_exists.mp (positioned other isAlso)
    refine ⟨otherPlace, otherPlaced, Nat.le_trans notBehind (Nat.not_lt.mp ?_)⟩
    intro before
    obtain ⟨_, there⟩ := List.getElem?_eq_some_iff.mp (position?_eq_some_iff.mp otherPlaced).1
    have refused := fail otherPlace before
    have passes := mem_other_callers.mp (List.mem_filter.mpr ⟨isAlso, bne_iff_ne.mpr apart⟩)
    rw [there, passes] at refused
    cases refused
  · rintro ⟨isCaller, isOther, position, found, least⟩
    refine firstCaller?_eq_some (List.mem_filter.mpr ⟨isCaller, bne_iff_ne.mpr isOther⟩) found ?_
    intro other member place placed
    obtain ⟨isAlso, apart⟩ := List.mem_filter.mp member
    obtain ⟨_, same, notAfter⟩ := least other isAlso (bne_iff_ne.mp apart)
    rw [placed] at same
    cases same
    exact notAfter

/-- Only a function that no other one calls is without a first caller. -/
theorem firstCaller?_eq_none_iff
    (positioned : ∀ other ∈ graph.callers key, (graph.position? other).isSome) :
    graph.firstCaller? key = none ↔ ∀ other ∈ graph.callers key, other = key := by
  constructor
  · intro noCaller other isCaller
    by_contra apart
    obtain ⟨place, placed⟩ := Option.isSome_iff_exists.mp (positioned other isCaller)
    have listed := List.mem_of_getElem? (position?_eq_some_iff.mp placed).1
    rw [firstCaller?, List.find?_eq_none] at noCaller
    exact noCaller other listed
      (mem_other_callers.mp (List.mem_filter.mpr ⟨isCaller, bne_iff_ne.mpr apart⟩))
  · intro onlyItself
    refine firstCaller?_eq_none (List.filter_eq_nil_iff.mpr ?_)
    intro other isCaller
    simp [onlyItself other isCaller]

end CallGraph

/-! ## Agreement -/

/-- A call graph agrees with the scope of a module. -/
structure CallGraph.AgreesWith (graph : CallGraph) (scope : ModuleScope) (m : Node) : Prop where
  /-- All readings of the calls between functions are the same. -/
  calls : ∀ caller ∈ scope.functions, ∀ callee ∈ scope.functions,
    [graph.hasEdge caller.key callee.key = true,
      callee.key ∈ graph.callees caller.key,
      caller.key ∈ graph.callers callee.key,
      callee.key ∈ scope.callsOf caller.key,
      caller.key ∈ scope.callersOf callee.key,
      scope.HoldsCall m caller callee].TFAE
  /-- Both ends of an edge are declared. -/
  declared : ∀ caller callee, graph.hasEdge caller callee = true →
    (∃ group ∈ scope.functions, group.key = caller) ∧
      ∃ group ∈ scope.functions, group.key = callee
  order : graph.order = scope.functions.map (·.key)
  once : graph.order.Nodup
  /-- The position of a function is the same in the order, in the graph and in
  the scope. -/
  positions : ∀ position key, graph.order[position]? = some key →
    graph.position? key = some position ∧
      ∃ group ∈ scope.functions, group.key = key ∧ group.position = position
  resolved : ∀ ref ∈ scope.references, graph.isResolved ref = true ↔ ref.resolved.isSome
  firstCaller : ∀ key caller, graph.firstCaller? key = some caller ↔
    graph.IsFirstCaller key caller
  noFirstCaller : ∀ key, graph.firstCaller? key = none ↔
    ∀ caller ∈ graph.callers key, caller = key

/-- The call graph of a scope agrees with it. -/
theorem callGraph_agreesWith (indexed : ModuleScope.ofModule isNested m = .ok scope) :
    (CallGraph.ofScope scope).AgreesWith scope m := by
  have index := indexes_of_ofModule indexed
  have refers := refersTo_of_ofModule indexed
  have hasEdge_iff : ∀ caller callee, (CallGraph.ofScope scope).hasEdge caller callee = true ↔
      (caller, callee) ∈ (CallGraph.ofScope scope).edges :=
    fun _ _ => List.contains_iff_mem
  have positioned : ∀ key, ∀ other ∈ (CallGraph.ofScope scope).callers key,
      ((CallGraph.ofScope scope).position? other).isSome := by
    intro key other isCaller
    have edge := CallGraph.mem_edges_ofScope.mpr (CallGraph.mem_callers_ofScope.mp isCaller)
    exact (position?_isSome_of_mem_edges refers edge).1
  refine ⟨?_, ?_, rfl, index.keys_nodup, ?_, ?_, ?_, ?_⟩
  · intro caller callerMember callee calleeMember
    have holds := exists_reference_iff_holdsCall indexed callerMember calleeMember
    tfae_have 1 ↔ 6 := (hasEdge_iff _ _).trans (CallGraph.mem_edges_ofScope.trans holds)
    tfae_have 2 ↔ 6 := CallGraph.mem_callees_ofScope.trans holds
    tfae_have 3 ↔ 6 := CallGraph.mem_callers_ofScope.trans holds
    tfae_have 4 ↔ 6 := mem_callsOf_iff.trans holds
    tfae_have 5 ↔ 6 := mem_callersOf_iff.trans holds
    tfae_finish
  · intro caller callee edge
    obtain ⟨ref, member, stands, binds⟩ :=
      CallGraph.mem_edges_ofScope.mp ((hasEdge_iff _ _).mp edge)
    exact ⟨List.mem_map.mp (refers.callers ref member _ stands),
      List.mem_map.mp (refers.resolved ref member _ binds)⟩
  · intro position key here
    refine ⟨CallGraph.position?_of_getElem? index.keys_nodup here, ?_⟩
    obtain ⟨group, found, sameKey⟩ := Option.map_eq_some_iff.mp (List.getElem?_map ▸ here)
    exact ⟨group, List.mem_of_getElem? found, sameKey, index.position_eq_of_getElem? found⟩
  · intro ref member
    rw [CallGraph.isResolved]
    cases binds : ref.resolved with
    | none => simp
    | some key =>
        have declared := refers.resolved ref member key binds
        rw [Option.any_some, Option.isSome_some]
        exact iff_of_true (CallGraph.position?_isSome_of_mem_order declared) rfl
  · intro key caller
    exact CallGraph.firstCaller?_eq_some_iff (positioned key)
  · intro key
    exact CallGraph.firstCaller?_eq_none_iff (positioned key)

theorem callGraph_agreesWith_mutual :
    ∃ scope, ModuleScope.ofModule (fun _ => false) (moduleOf callingForms) = .ok scope ∧
      (CallGraph.ofScope scope).edges = [(⟨"f", 2⟩, ⟨"g", 1⟩), (⟨"g", 1⟩, ⟨"f", 2⟩)] ∧
      (CallGraph.ofScope scope).firstCaller? ⟨"g", 1⟩ = some ⟨"f", 2⟩ ∧
      (CallGraph.ofScope scope).AgreesWith scope (moduleOf callingForms) := by
  have indexed : ModuleScope.ofModule (fun _ => false) (moduleOf callingForms) = .ok _ := rfl
  exact ⟨_, indexed, by decide, by decide, callGraph_agreesWith indexed⟩

end StyleAudit
