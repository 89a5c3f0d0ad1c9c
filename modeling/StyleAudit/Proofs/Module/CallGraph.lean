import Mathlib.Data.List.MinMax
import StyleAudit.Module.CallGraph
import StyleAudit.Proofs.Module.Scope
import StyleAudit.Proofs.Table

/-!
# Positions in a call graph

The first caller of a function is the caller with the least position. Looked up
in this way (`CallGraph.readFirstCaller`) it is found whenever all callers have
a position, and so in the call graph of every scope that was built. The edges,
the callees and the callers are those of the call sites
(`mem_edges_ofScope`, `mem_callees_ofScope`, `mem_callers_ofScope`).
-/

namespace StyleAudit

/-! ## Tables -/

/-- What a table lists for a key is what the key is paired with. -/
theorem mem_lookup_tabulate {pairs : List (FunctionKey × FunctionKey)}
    {key value : FunctionKey} :
    value ∈ ((tabulate pairs).lookup key).getD [] ↔ (key, value) ∈ pairs := by
  have listed : value ∈ ((pairs.filter (·.1 == key)).map (·.2)).eraseDups ↔
      (key, value) ∈ pairs := by
    simp [List.mem_eraseDups]
  rw [tabulate, lookup_map_pair]
  split
  · exact listed
  · rename_i absent
    constructor
    · intro impossible
      cases impossible
    · intro paired
      exact absurd (List.mem_eraseDups.mpr (List.mem_map_of_mem paired)) absent

theorem CallRef.ends?_eq_some_iff {ref : CallRef} {caller callee : FunctionKey} :
    ref.ends? = some (caller, callee) ↔ ref.caller = some caller ∧ ref.resolved = some callee := by
  rw [CallRef.ends?]
  cases ref.caller <;> cases ref.resolved <;> simp

namespace CallGraph

section OfScope

variable {scope : ModuleScope} {caller callee : FunctionKey}

/-- A call site in one function that binds to another one. -/
theorem mem_calls_iff :
    (caller, callee) ∈ scope.references.filterMap CallRef.ends? ↔
      ∃ ref ∈ scope.references, ref.caller = some caller ∧ ref.resolved = some callee := by
  simp only [List.mem_filterMap, CallRef.ends?_eq_some_iff]

theorem mem_edges_ofScope :
    (caller, callee) ∈ (ofScope scope).edges ↔
      ∃ ref ∈ scope.references, ref.caller = some caller ∧ ref.resolved = some callee :=
  List.mem_eraseDups.trans mem_calls_iff

/-- An edge is a recorded call, from the function that it stands in to the one that
it is resolved to. -/
theorem hasEdge_iff :
    (ofScope scope).hasEdge caller callee = true ↔
      ∃ ref ∈ scope.references, ref.caller = some caller ∧ ref.resolved = some callee :=
  List.contains_iff_mem.trans mem_edges_ofScope

theorem mem_callees_ofScope :
    callee ∈ (ofScope scope).callees caller ↔
      ∃ ref ∈ scope.references, ref.caller = some caller ∧ ref.resolved = some callee :=
  mem_lookup_tabulate.trans mem_calls_iff

theorem mem_callers_ofScope :
    caller ∈ (ofScope scope).callers callee ↔
      ∃ ref ∈ scope.references, ref.caller = some caller ∧ ref.resolved = some callee := by
  refine mem_lookup_tabulate.trans (Iff.trans ?_ mem_calls_iff)
  simp

end OfScope

variable {graph : CallGraph} {key : FunctionKey}

/-- The position of a function, or the key that has none. -/
def readPosition (graph : CallGraph) (key : FunctionKey) : Except FunctionKey Nat :=
  match graph.position? key with
  | some position => .ok position
  | none => .error key

/-- The caller with the least position, other than the function itself. -/
def readFirstCaller (graph : CallGraph) (key : FunctionKey) :
    Except FunctionKey (Option FunctionKey) := do
  let placed ← ((graph.callers key).filter (· != key)).mapM fun caller => do
    let position ← graph.readPosition caller
    return (position, caller)
  return (placed.argmin (·.1)).map (·.2)

/-- The place of a function is the first one where its key stands. -/
theorem position?_eq_some_iff {position : Nat} :
    graph.position? key = some position ↔
      graph.order[position]? = some key ∧
        ∀ earlier < position, graph.order[earlier]? ≠ some key := by
  rw [position?, List.findIdx?_eq_some_iff_getElem, List.getElem?_eq_some_iff]
  simp only [beq_iff_eq]
  constructor
  · intro found
    rcases found with ⟨inside, same, first⟩
    refine ⟨⟨inside, same⟩, ?_⟩
    intro earlier before again
    obtain ⟨_, sameAgain⟩ := List.getElem?_eq_some_iff.mp again
    exact first earlier before sameAgain
  · intro found
    rcases found with ⟨⟨inside, same⟩, first⟩
    refine ⟨inside, same, ?_⟩
    intro earlier before again
    exact first earlier before (List.getElem?_eq_some_iff.mpr ⟨_, again⟩)

theorem position?_isSome_of_mem_order (listed : key ∈ graph.order) :
    (graph.position? key).isSome := by
  rw [position?, List.findIdx?_isSome, List.any_eq_true]
  exact ⟨key, listed, beq_self_eq_true key⟩

/-- A key has a position, and is not in the order before it. -/
theorem exists_position_le {place : Nat} (same : graph.order[place]? = some key) :
    ∃ position, graph.position? key = some position ∧ position ≤ place := by
  obtain ⟨position, found⟩ := Option.isSome_iff_exists.mp
    (position?_isSome_of_mem_order (List.mem_of_getElem? same))
  refine ⟨position, found, ?_⟩
  obtain ⟨_, first⟩ := position?_eq_some_iff.mp found
  by_contra before
  exact first place (by omega) same

/-! ## First callers -/

theorem mem_other_callers {caller : FunctionKey} :
    caller ∈ (graph.callers key).filter (· != key) ↔
      (caller != key && (graph.callers key).contains caller) = true := by
  rw [List.mem_filter, Bool.and_eq_true, List.contains_iff_mem, and_comm]

theorem firstCaller?_eq_none (noCaller : (graph.callers key).filter (· != key) = []) :
    graph.firstCaller? key = none := by
  rw [firstCaller?, List.find?_eq_none]
  intro caller _ calls
  have member := mem_other_callers.mpr calls
  rw [noCaller] at member
  cases member

/-- A caller that no other caller stands before is the first one. -/
theorem firstCaller?_eq_some {caller : FunctionKey} {position : Nat}
    (isCaller : caller ∈ (graph.callers key).filter (· != key))
    (found : graph.position? caller = some position)
    (least : ∀ other ∈ (graph.callers key).filter (· != key), ∀ place,
      graph.position? other = some place → position ≤ place) :
    graph.firstCaller? key = some caller := by
  obtain ⟨inside, atPosition⟩ := List.getElem?_eq_some_iff.mp (position?_eq_some_iff.mp found).1
  rw [firstCaller?, List.find?_eq_some_iff_getElem]
  refine ⟨mem_other_callers.mp isCaller, position, inside, atPosition, ?_⟩
  intro earlier before
  rw [Bool.not_eq_true', ← Bool.not_eq_true]
  intro calls
  obtain ⟨place, otherFound, notAfter⟩ :=
    exists_position_le (List.getElem?_eq_getElem (Nat.lt_trans before inside))
  have notBefore := least _ (mem_other_callers.mpr calls) place otherFound
  omega

/-- The look-up of positions in the search for the first caller succeeds for callers
that are declared. -/
theorem readFirstCaller_eq
    (positioned : ∀ caller ∈ graph.callers key, (graph.position? caller).isSome) :
    graph.readFirstCaller key = .ok (graph.firstCaller? key) := by
  have placedAt : ∀ caller ∈ (graph.callers key).filter (· != key), ∃ entry : Nat × FunctionKey,
      (do
        let position ← graph.readPosition caller
        return (position, caller) : Except FunctionKey (Nat × FunctionKey)) = .ok entry ∧
      graph.position? caller = some entry.1 ∧ entry.2 = caller := by
    intro caller member
    obtain ⟨position, found⟩ :=
      Option.isSome_iff_exists.mp (positioned caller (List.mem_of_mem_filter member))
    refine ⟨(position, caller), ?_, found, rfl⟩
    rw [readPosition, found]
    rfl
  obtain ⟨placed, pairs⟩ := Outcome.exists_forall₂_iff.mpr placedAt
  have read : graph.readFirstCaller key = .ok ((placed.argmin (·.1)).map (·.2)) := by
    rw [readFirstCaller, Outcome.mapM_eq_ok_iff.mpr (pairs.imp fun _ _ found => found.1)]
    rfl
  rw [read]
  cases least : placed.argmin (·.1) with
  | none =>
      rw [List.argmin_eq_none.mp least] at pairs
      rw [firstCaller?_eq_none (List.forall₂_nil_right_iff.mp pairs)]
      rfl
  | some entry =>
      obtain ⟨caller, member, _, found, same⟩ :=
        Outcome.exists_of_forall₂_of_mem_right pairs (List.argmin_mem least)
      have isLeast : ∀ other ∈ (graph.callers key).filter (· != key), ∀ place,
          graph.position? other = some place → entry.1 ≤ place := by
        intro other otherMember place otherFound
        obtain ⟨otherEntry, listed, _, placed, _⟩ :=
          Outcome.exists_of_forall₂_of_mem_left pairs otherMember
        rw [otherFound] at placed
        rw [Option.some.inj placed]
        exact List.le_of_mem_argmin listed least
      rw [firstCaller?_eq_some member found isLeast, ← same]
      rfl

end CallGraph

/-- Both ends of every edge of a call graph have a position. -/
theorem position?_isSome_of_mem_edges {scope : ModuleScope} {m : Node}
    (refers : scope.RefersTo m) {caller callee : FunctionKey}
    (edge : (caller, callee) ∈ (CallGraph.ofScope scope).edges) :
    ((CallGraph.ofScope scope).position? caller).isSome ∧
      ((CallGraph.ofScope scope).position? callee).isSome := by
  obtain ⟨ref, member, stands, binds⟩ := CallGraph.mem_edges_ofScope.mp edge
  exact ⟨CallGraph.position?_isSome_of_mem_order (refers.callers ref member _ stands),
    CallGraph.position?_isSome_of_mem_order (refers.resolved ref member _ binds)⟩

/-- The first callers in the call graph of a scope can be looked up. -/
theorem readFirstCaller_ofScope {scope : ModuleScope} {m : Node} (refers : scope.RefersTo m)
    (key : FunctionKey) :
    (CallGraph.ofScope scope).readFirstCaller key =
      .ok ((CallGraph.ofScope scope).firstCaller? key) := by
  apply CallGraph.readFirstCaller_eq
  intro caller member
  have edge := CallGraph.mem_edges_ofScope.mpr (CallGraph.mem_callers_ofScope.mp member)
  exact (position?_isSome_of_mem_edges refers edge).1

end StyleAudit
