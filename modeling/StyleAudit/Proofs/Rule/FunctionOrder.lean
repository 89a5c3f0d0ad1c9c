import Mathlib.Logic.Relation
import StyleAudit.Proofs.Module.CallAgreement
import StyleAudit.Rule.FunctionOrder

/-!
# Helpers below their first callers

The rule looks at one link for each function: between a helper and its first
caller every function must be private, with a first caller in the same stretch
(`SitsBelow`). Where it finds nothing this holds for all helpers at once, and
then the links can be followed: `check_eq_nil_iff_headsCluster` says that all
functions between a helper and its first caller lead back to that caller without
leaving the stretch.
-/

namespace StyleAudit

variable {isNested : String → Bool} {m : Node} {scope : ModuleScope}

/-! ## Positions -/

section Positions

variable {clauses : List Clause} {groups : List FunctionGroup} {group other : FunctionGroup}

theorem Indexes.getElem?_position (index : Indexes clauses groups) (member : group ∈ groups) :
    groups[group.position]? = some group := by
  obtain ⟨position, here⟩ := List.mem_iff_getElem?.mp member
  rw [index.position_eq_of_getElem? here]
  exact here

theorem Indexes.mem_take_drop_iff (index : Indexes clauses groups) {low high : Nat} :
    other ∈ (groups.take high).drop (low + 1) ↔
      other ∈ groups ∧ low < other.position ∧ other.position < high := by
  rw [List.mem_iff_getElem?]
  simp only [List.getElem?_drop, List.getElem?_take]
  constructor
  · rintro ⟨offset, found⟩
    split at found
    · rename_i inside
      rw [index.position_eq_of_getElem? found]
      exact ⟨List.mem_of_getElem? found, by omega, inside⟩
    · cases found
  · rintro ⟨member, above, below⟩
    refine ⟨other.position - (low + 1), ?_⟩
    have same : low + 1 + (other.position - (low + 1)) = other.position := by omega
    rw [same, if_pos below]
    exact index.getElem?_position member

end Positions

namespace CallGraph

variable {group : FunctionGroup} {caller callee : FunctionKey}

theorem position?_key (index : Indexes (clausesOf m.children) scope.functions)
    (member : group ∈ scope.functions) :
    (ofScope scope).position? group.key = some group.position := by
  apply position?_of_getElem? index.keys_nodup
  rw [ofScope, List.getElem?_map, index.getElem?_position member, Option.map_some]

/-- A first caller is a function of the module. -/
theorem exists_firstCaller (first : (ofScope scope).firstCaller? callee = some caller) :
    ∃ group ∈ scope.functions, group.key = caller :=
  List.mem_map.mp (List.mem_of_find?_eq_some first)

theorem ne_and_hasEdge_of_firstCaller?
    (first : (ofScope scope).firstCaller? callee = some caller) :
    caller ≠ callee ∧ (ofScope scope).hasEdge caller callee = true := by
  have calls := List.find?_some first
  rw [Bool.and_eq_true, bne_iff_ne, List.contains_iff_mem, mem_callers_ofScope] at calls
  exact ⟨calls.1, hasEdge_iff.mpr calls.2⟩

end CallGraph

namespace FunctionOrder

/-! ## One helper -/

/-- A helper stands below a caller, with nothing between the two but private
functions first called from within the stretch. -/
structure SitsBelow (scope : ModuleScope) (caller helper : FunctionGroup) : Prop where
  below : caller.position < helper.position
  between : ∀ other ∈ scope.functions,
    caller.position < other.position → other.position < helper.position →
      other.isPrivate = true ∧
        ∃ first ∈ scope.functions,
          (CallGraph.ofScope scope).firstCaller? other.key = some first.key ∧
            caller.position ≤ first.position ∧ first.position < helper.position

section Check

variable {helper caller other : FunctionGroup} {low high : Nat}

/-- Between a caller and its helper belong the private functions whose first caller
stands from the caller on and before the helper. -/
theorem belongsBetween_iff (index : Indexes (clausesOf m.children) scope.functions) :
    belongsBetween (CallGraph.ofScope scope) low high other = true ↔
      other.isPrivate = true ∧
        ∃ first ∈ scope.functions,
          (CallGraph.ofScope scope).firstCaller? other.key = some first.key ∧
            low ≤ first.position ∧ first.position < high := by
  rw [belongsBetween, Bool.and_eq_true, Option.any_eq_true]
  simp only [Option.bind_eq_some_iff, decide_eq_true_eq]
  refine and_congr_right fun _ => ?_
  constructor
  · rintro ⟨position, ⟨key, first, placed⟩, inside⟩
    obtain ⟨group, member, rfl⟩ := CallGraph.exists_firstCaller first
    rw [CallGraph.position?_key index member] at placed
    cases placed
    exact ⟨group, member, first, inside⟩
  · rintro ⟨group, member, first, inside⟩
    exact ⟨group.position, ⟨group.key, first, CallGraph.position?_key index member⟩, inside⟩

/-- There is nothing to say about a helper exactly when it sits below its first caller. -/
theorem problem?_eq_none_iff (index : Indexes (clausesOf m.children) scope.functions)
    (apart : caller.position ≠ helper.position) (key : FunctionKey) :
    problem? scope.functions (CallGraph.ofScope scope) helper key caller.position = none ↔
      SitsBelow scope caller helper := by
  rw [problem?]
  by_cases above : helper.position < caller.position
  · rw [if_pos above]
    constructor
    · intro impossible
      cases impossible
    · intro sits
      have below := sits.below
      omega
  · rw [if_neg above]
    have fits : ((scope.functions.take helper.position).drop (caller.position + 1)).all
        (belongsBetween (CallGraph.ofScope scope) caller.position helper.position) = true ↔
          SitsBelow scope caller helper := by
      simp only [List.all_eq_true, index.mem_take_drop_iff, belongsBetween_iff index]
      constructor
      · intro each
        exact ⟨by omega, fun other member after before => each other ⟨member, after, before⟩⟩
      · intro sits other inside
        exact sits.between other inside.1 inside.2.1 inside.2.2
    rw [← fits]
    simp only [ite_eq_left_iff, reduceCtorEq, imp_false, not_not]

/-- There is nothing to say about a helper that sits below its first caller, and
nothing about other functions. -/
theorem findingOf?_eq_none_iff (index : Indexes (clausesOf m.children) scope.functions)
    (member : helper ∈ scope.functions) :
    findingOf? scope (CallGraph.ofScope scope) helper = none ↔
      (helper.isPrivate = true → ∀ caller ∈ scope.functions,
        (CallGraph.ofScope scope).firstCaller? helper.key = some caller.key →
          SitsBelow scope caller helper) := by
  rw [findingOf?]
  cases hidden : helper.isPrivate with
  | false => simp
  | true =>
      cases first : (CallGraph.ofScope scope).firstCaller? helper.key with
      | none => simp
      | some key =>
          obtain ⟨caller, callerMember, rfl⟩ := CallGraph.exists_firstCaller first
          have apart : caller.position ≠ helper.position := by
            intro same
            rw [index.eq_of_positions callerMember member same] at first
            exact (CallGraph.ne_and_hasEdge_of_firstCaller? first).1 rfl
          simp only [Bool.not_true, Bool.false_eq_true, if_false, forall_true_left,
            CallGraph.position?_key index callerMember, Option.map_eq_none_iff,
            problem?_eq_none_iff index apart, Option.some.injEq]
          constructor
          · intro sits other otherMember same
            rw [← index.eq_of_key_eq callerMember otherMember same]
            exact sits
          · intro each
            exact each caller callerMember rfl

end Check

theorem check_eq_nil_iff (index : Indexes (clausesOf m.children) scope.functions) :
    check scope (CallGraph.ofScope scope) = [] ↔
      ∀ helper ∈ scope.functions, helper.isPrivate = true → ∀ caller ∈ scope.functions,
        (CallGraph.ofScope scope).firstCaller? helper.key = some caller.key →
          SitsBelow scope caller helper := by
  rw [check, List.filterMap_eq_nil_iff]
  exact forall₂_congr fun helper member => findingOf?_eq_none_iff index member

/-! ## All helpers -/

/-- The step from a function to its first caller, both of which stand in a
stretch of the module. -/
structure LinkWithin (scope : ModuleScope) (low high : Nat) (callee caller : FunctionGroup) :
    Prop where
  callee_mem : callee ∈ scope.functions
  caller_mem : caller ∈ scope.functions
  first : (CallGraph.ofScope scope).firstCaller? callee.key = some caller.key
  callee_inside : low ≤ callee.position ∧ callee.position ≤ high
  caller_inside : low ≤ caller.position ∧ caller.position ≤ high

/-- A call of one function in another. -/
def Calls (scope : ModuleScope) (caller callee : FunctionGroup) : Prop :=
  (CallGraph.ofScope scope).hasEdge caller.key callee.key = true

/-- A helper stands below a caller, and the functions between the two are a
cluster of that caller: all are private, lead back to it from first caller to
first caller within the stretch, and are called from it directly or
indirectly. -/
structure HeadsCluster (scope : ModuleScope) (caller helper : FunctionGroup) : Prop where
  below : caller.position < helper.position
  between : ∀ other ∈ scope.functions,
    caller.position < other.position → other.position < helper.position →
      other.isPrivate = true ∧
        Relation.TransGen (LinkWithin scope caller.position helper.position) other caller ∧
        Relation.TransGen (Calls scope) caller other

section Cluster

variable {caller helper : FunctionGroup}

/-- The first callers of functions inside a stretch lead to its beginning. Every
link goes up, so the induction is on the position. -/
theorem linked_of_sitsBelow (index : Indexes (clausesOf m.children) scope.functions)
    (silent : ∀ helper ∈ scope.functions, helper.isPrivate = true → ∀ caller ∈ scope.functions,
      (CallGraph.ofScope scope).firstCaller? helper.key = some caller.key →
        SitsBelow scope caller helper)
    (callerMember : caller ∈ scope.functions) (sits : SitsBelow scope caller helper)
    {other : FunctionGroup} (member : other ∈ scope.functions)
    (after : caller.position < other.position) (before : other.position < helper.position) :
    Relation.TransGen (LinkWithin scope caller.position helper.position) other caller := by
  induction position : other.position using Nat.strong_induction_on generalizing other with
  | h position inductionHypothesis =>
      subst position
      obtain ⟨hidden, first, firstMember, isFirst, notAbove, notBelow⟩ :=
        sits.between other member after before
      have goesUp := (silent other member hidden first firstMember isFirst).below
      have link : LinkWithin scope caller.position helper.position other first :=
        ⟨member, firstMember, isFirst, ⟨by omega, by omega⟩, notAbove, by omega⟩
      rcases Nat.eq_or_lt_of_le notAbove with atCaller | inside
      · rw [index.eq_of_positions callerMember firstMember atCaller]
        exact Relation.TransGen.single (atCaller ▸ link)
      · exact Relation.TransGen.head link
          (inductionHypothesis first.position goesUp firstMember inside notBelow rfl)

/-- What is linked to a caller is called from it. -/
theorem calls_of_linked {low high : Nat} {other : FunctionGroup}
    (linked : Relation.TransGen (LinkWithin scope low high) other caller) :
    Relation.TransGen (Calls scope) caller other := by
  refine Relation.TransGen.mono ?_ _ _ linked.swap
  intro first callee link
  exact (CallGraph.ne_and_hasEdge_of_firstCaller? link.first).2

/-- A link of a function in a cluster ends in the stretch and before the
helper. -/
theorem sitsBelow_of_headsCluster
    (clustered : ∀ helper ∈ scope.functions, helper.isPrivate = true → ∀ caller ∈ scope.functions,
      (CallGraph.ofScope scope).firstCaller? helper.key = some caller.key →
        HeadsCluster scope caller helper)
    (heads : HeadsCluster scope caller helper) : SitsBelow scope caller helper := by
  refine ⟨heads.below, ?_⟩
  intro other member after before
  obtain ⟨hidden, linked, _⟩ := heads.between other member after before
  obtain ⟨first, link, _⟩ := Relation.TransGen.head'_iff.mp linked
  have goesUp := (clustered other member hidden first link.caller_mem link.first).below
  exact ⟨hidden, first, link.caller_mem, link.first, link.caller_inside.1, by omega⟩

end Cluster

/-- The rule finds nothing in a module that can be indexed when each private
function with a first caller stands below it, and all functions between the two
are private and lead back to that caller, first caller by first caller, without
leaving the stretch. So they are all called from it, directly or indirectly. -/
theorem check_eq_nil_iff_headsCluster (indexed : ModuleScope.ofModule isNested m = .ok scope) :
    check scope (CallGraph.ofScope scope) = [] ↔
      ∀ helper ∈ scope.functions, helper.isPrivate = true → ∀ key,
        (CallGraph.ofScope scope).firstCaller? helper.key = some key →
          ∃ caller ∈ scope.functions, caller.key = key ∧ HeadsCluster scope caller helper := by
  have index := indexes_of_ofModule indexed
  rw [check_eq_nil_iff index]
  constructor
  · intro silent helper helperMember hidden key first
    obtain ⟨caller, callerMember, rfl⟩ := CallGraph.exists_firstCaller first
    have sits := silent helper helperMember hidden caller callerMember first
    refine ⟨caller, callerMember, rfl, sits.below, ?_⟩
    intro other member after before
    have linked := linked_of_sitsBelow index silent callerMember sits member after before
    exact ⟨(sits.between other member after before).1, linked, calls_of_linked linked⟩
  · intro clustered
    have heads : ∀ helper ∈ scope.functions, helper.isPrivate = true →
        ∀ caller ∈ scope.functions,
          (CallGraph.ofScope scope).firstCaller? helper.key = some caller.key →
            HeadsCluster scope caller helper := by
      intro helper helperMember hidden caller callerMember first
      obtain ⟨other, otherMember, same, isHead⟩ :=
        clustered helper helperMember hidden caller.key first
      rw [← index.eq_of_key_eq otherMember callerMember same]
      exact isHead
    intro helper helperMember hidden caller callerMember first
    exact sitsBelow_of_headsCluster heads
      (heads helper helperMember hidden caller callerMember first)

/-- A function with two helpers, the first of which has a helper of its own
between them. -/
def clusteredForms : List Node :=
  [functionForm 2 "f" "public" [] [callForm 3 .null "g" [], callForm 4 .null "k" []],
    functionForm 6 "g" "private" [] [callForm 7 .null "h" []],
    functionForm 9 "h" "private" [] [],
    functionForm 11 "k" "private" [] []]

theorem check_eq_nil_iff_headsCluster_nested :
    ∃ scope, ModuleScope.ofModule (fun _ => false) (moduleOf clusteredForms) = .ok scope ∧
      (CallGraph.ofScope scope).firstCaller? ⟨"h", 0⟩ = some ⟨"g", 0⟩ ∧
      (CallGraph.ofScope scope).firstCaller? ⟨"k", 0⟩ = some ⟨"f", 0⟩ ∧
      check scope (CallGraph.ofScope scope) = [] ∧
      ∀ helper ∈ scope.functions, helper.isPrivate = true → ∀ key,
        (CallGraph.ofScope scope).firstCaller? helper.key = some key →
          ∃ caller ∈ scope.functions, caller.key = key ∧ HeadsCluster scope caller helper := by
  have indexed : ModuleScope.ofModule (fun _ => false) (moduleOf clusteredForms) = .ok _ := rfl
  refine ⟨_, indexed, by decide, by decide, by decide, ?_⟩
  exact (check_eq_nil_iff_headsCluster indexed).mp (by decide)

end FunctionOrder
end StyleAudit
