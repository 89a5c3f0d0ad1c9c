import Mathlib.Data.List.Nodup
import StyleAudit.Module.Scope
import StyleAudit.Proofs.Outcome

/-!
# Functions joined from clauses

Clauses are joined by name and number of parameters. `Indexes` says of functions
that they are made of the clauses read so far. A clause that is read keeps it
(`Indexes.insertClause`), so that `groupClauses` either ends with the functions
of all clauses or stops at the first clause that differs in visibility from the
first one of its key (`Indexes.foldlM`).
-/

namespace StyleAudit

/-! ## Function forms -/

/-- The clauses are the function forms among the forms of a module, each with its
position. -/
theorem mem_clausesOf_iff {forms : List Node} {clause : Clause} :
    clause ∈ clausesOf forms ↔
      forms[clause.position]? = some clause.node ∧ clause.node.kind = .function := by
  rw [clausesOf, List.mem_map]
  constructor
  · rintro ⟨⟨form, position⟩, kept, rfl⟩
    obtain ⟨indexed, isFunction⟩ := List.mem_filter.mp kept
    exact ⟨List.mem_zipIdx_iff_getElem?.mp indexed, beq_iff_eq.mp isFunction⟩
  · rintro ⟨found, isFunction⟩
    refine ⟨(clause.node, clause.position), List.mem_filter.mpr ⟨?_, ?_⟩, rfl⟩
    · exact List.mem_zipIdx_iff_getElem?.mpr found
    · exact beq_iff_eq.mpr isFunction

theorem pairwise_position_clausesOf (forms : List Node) :
    (clausesOf forms).Pairwise fun earlier later => earlier.position < later.position := by
  have positions : (forms.zipIdx.map Prod.snd).Pairwise (· < ·) := by
    rw [List.zipIdx_map_snd]
    exact List.pairwise_lt_range'
  rw [clausesOf, List.pairwise_map]
  exact (List.pairwise_map.mp positions).filter _

/-- Clauses at one position are the same clause. -/
theorem eq_of_position_eq {forms : List Node} {clause other : Clause}
    (member : clause ∈ clausesOf forms) (otherMember : other ∈ clausesOf forms)
    (same : clause.position = other.position) : clause = other := by
  obtain ⟨found, _⟩ := mem_clausesOf_iff.mp member
  obtain ⟨otherFound, _⟩ := mem_clausesOf_iff.mp otherMember
  rw [same, otherFound] at found
  obtain ⟨position, node⟩ := clause
  obtain ⟨otherPosition, otherNode⟩ := other
  rw [Clause.mk.injEq]
  exact ⟨same, (Option.some.inj found).symm⟩

/-- A clause differs in visibility from the first clause of its key. -/
def differsFromFirst (clauses : List Clause) (clause : Clause) : Bool :=
  (clauses.find? (·.key == clause.key)).any (·.visibility != clause.visibility)

/-- Only what stands before a clause can make it differ. -/
theorem differsFromFirst_append (earlier rest : List Clause) (clause : Clause) :
    differsFromFirst (earlier ++ clause :: rest) clause = differsFromFirst earlier clause := by
  rw [differsFromFirst, differsFromFirst, List.find?_append]
  cases earlier.find? (·.key == clause.key) with
  | none => simp
  | some first => rfl

/-- The function that is found under a key is listed and has that key. -/
theorem mem_and_key_of_find? {groups : List FunctionGroup} {key : FunctionKey}
    {group : FunctionGroup} (found : groups.find? (·.key == key) = some group) :
    group ∈ groups ∧ group.key = key :=
  ⟨List.mem_of_find?_eq_some found, by simpa using List.find?_some found⟩

/-- Some clause differs from the first one of its key when a key has clauses of
both visibilities. -/
theorem exists_find?_differsFromFirst_iff {clauses : List Clause} :
    (∃ clause, clauses.find? (differsFromFirst clauses) = some clause) ↔
      ∃ shown ∈ clauses, ∃ kept ∈ clauses, shown.key = kept.key ∧
        shown.visibility = .exported ∧ kept.visibility = .hidden := by
  constructor
  · rintro ⟨clause, found⟩
    have member := List.mem_of_find?_eq_some found
    have differs := List.find?_some found
    rw [differsFromFirst, Option.any_eq_true] at differs
    obtain ⟨first, firstFound, unequal⟩ := differs
    have firstMember := List.mem_of_find?_eq_some firstFound
    have sameKey : first.key = clause.key := by simpa using List.find?_some firstFound
    rw [bne_iff_ne] at unequal
    cases shown : first.visibility with
    | exported =>
        cases kept : clause.visibility with
        | exported => exact absurd (shown.trans kept.symm) unequal
        | hidden => exact ⟨first, firstMember, clause, member, sameKey, shown, kept⟩
    | hidden =>
        cases other : clause.visibility with
        | exported => exact ⟨clause, member, first, firstMember, sameKey.symm, other, shown⟩
        | hidden => exact absurd (shown.trans other.symm) unequal
  · rintro ⟨shown, shownMember, kept, keptMember, sameKey, exported, hidden⟩
    rw [← Option.isSome_iff_exists, List.find?_isSome]
    have firstIsSome : (clauses.find? (·.key == shown.key)).isSome :=
      List.find?_isSome.mpr ⟨shown, shownMember, beq_self_eq_true _⟩
    obtain ⟨first, firstFound⟩ := Option.isSome_iff_exists.mp firstIsSome
    -- The first clause of the key has one of the two visibilities, so that the
    -- clause of the other one differs from it.
    cases visible : first.visibility with
    | exported =>
        refine ⟨kept, keptMember, ?_⟩
        rw [differsFromFirst, ← sameKey, firstFound, Option.any_some, visible, hidden]
        rfl
    | hidden =>
        refine ⟨shown, shownMember, ?_⟩
        rw [differsFromFirst, firstFound, Option.any_some, visible, exported]
        rfl

/-! ## Reading clauses -/

/-- A function after a clause was read, which is added to its own function. -/
def FunctionGroup.reading (clause : Clause) (group : FunctionGroup) : FunctionGroup :=
  if group.key = clause.key then group.addClause clause else group

section Reading

variable (clause : Clause) (group : FunctionGroup)

@[simp]
theorem FunctionGroup.key_reading : (group.reading clause).key = group.key := by
  rw [reading]
  split <;> rfl

@[simp]
theorem FunctionGroup.visibility_reading :
    (group.reading clause).visibility = group.visibility := by
  rw [reading]
  split <;> rfl

@[simp]
theorem FunctionGroup.position_reading : (group.reading clause).position = group.position := by
  rw [reading]
  split <;> rfl

@[simp]
theorem FunctionGroup.first_reading : (group.reading clause).first = group.first := by
  rw [reading]
  split <;> rfl

theorem FunctionGroup.clauses_reading :
    (group.reading clause).clauses = group.clauses ++ [clause].filter (·.key == group.key) := by
  rw [reading]
  by_cases itsOwn : group.key = clause.key
  · rw [if_pos itsOwn]
    simp [addClause, clauses, itsOwn]
  · rw [if_neg itsOwn]
    simp [Ne.symm itsOwn]

end Reading

/-- The least number of arguments is that of some clause, and of no other clause
a lesser one. -/
def FunctionGroup.HasLeastArity (group : FunctionGroup) : Prop :=
  (∀ clause ∈ group.clauses, group.minArity ≤ clause.minArity) ∧
    ∃ clause ∈ group.clauses, group.minArity = clause.minArity

theorem FunctionGroup.HasLeastArity.reading {group : FunctionGroup} (clause : Clause)
    (least : group.HasLeastArity) : (group.reading clause).HasLeastArity := by
  obtain ⟨below, reached, reachedMember, same⟩ := least
  rw [FunctionGroup.reading]
  split
  · have members : ∀ other, other ∈ (group.addClause clause).clauses ↔
        other ∈ group.clauses ∨ other = clause := by
      intro other
      simp [FunctionGroup.addClause, FunctionGroup.clauses, or_assoc]
    have addedLeast : (group.addClause clause).minArity = min group.minArity clause.minArity := rfl
    rw [FunctionGroup.HasLeastArity, addedLeast]
    constructor
    · intro other member
      rcases (members other).mp member with earlier | rfl
      · exact Nat.le_trans (Nat.min_le_left _ _) (below other earlier)
      · exact Nat.min_le_right _ _
    · rcases Nat.le_total group.minArity clause.minArity with smaller | larger
      · refine ⟨reached, (members reached).mpr (Or.inl reachedMember), ?_⟩
        rw [Nat.min_eq_left smaller, same]
      · refine ⟨clause, (members clause).mpr (Or.inr rfl), ?_⟩
        rw [Nat.min_eq_right larger]
  · exact ⟨below, reached, reachedMember, same⟩

/-- The functions are made of the clauses read so far. -/
structure Indexes (clauses : List Clause) (groups : List FunctionGroup) : Prop where
  clauses_eq : ∀ group ∈ groups, group.clauses = clauses.filter (·.key == group.key)
  keys_nodup : (groups.map (·.key)).Nodup
  declared : ∀ clause ∈ clauses, clause.key ∈ groups.map (·.key)
  firsts : (groups.map (·.first)).Sublist clauses
  visible : ∀ group ∈ groups, ∀ clause ∈ group.clauses, clause.visibility = group.visibility
  leastArity : ∀ group ∈ groups, group.HasLeastArity
  positions : groups.map (·.position) = List.range groups.length

namespace Indexes

variable {clauses earlier : List Clause} {groups : List FunctionGroup} {group other : FunctionGroup}

theorem nil : Indexes [] [] :=
  ⟨by simp, by simp, by simp, by simp, by simp, by simp, rfl⟩

theorem eq_of_key_eq (index : Indexes clauses groups) (member : group ∈ groups)
    (otherMember : other ∈ groups) (same : group.key = other.key) : group = other :=
  List.inj_on_of_nodup_map index.keys_nodup member otherMember same

theorem pairwise_position (index : Indexes clauses groups) :
    groups.Pairwise fun earlier later => earlier.position < later.position := by
  have ordered : (groups.map (·.position)).Pairwise (· < ·) := by
    rw [index.positions]
    exact List.pairwise_lt_range
  rw [List.pairwise_map] at ordered
  exact ordered

theorem position_eq_of_getElem? (index : Indexes clauses groups) {position : Nat}
    (here : groups[position]? = some group) : group.position = position := by
  have listed : (groups.map (·.position))[position]? = some group.position := by
    rw [List.getElem?_map, here, Option.map_some]
  rw [index.positions] at listed
  obtain ⟨_, same⟩ := List.getElem?_eq_some_iff.mp listed
  rw [← same, List.getElem_range]

theorem eq_of_positions (index : Indexes clauses groups) (member : group ∈ groups)
    (otherMember : other ∈ groups) (same : group.position = other.position) : group = other := by
  have positions : (groups.map (·.position)).Nodup := by
    rw [index.positions]
    exact List.nodup_range
  exact List.inj_on_of_nodup_map positions member otherMember same

/-- The first function that passes a test is that of the least position. -/
theorem find?_eq_some_iff (index : Indexes clauses groups) {test : FunctionGroup → Bool} :
    groups.find? test = some group ↔ group ∈ groups ∧ test group = true ∧
      ∀ other ∈ groups, test other = true → group.position ≤ other.position := by
  have isLeast : ∀ first, groups.find? test = some first →
      ∀ other ∈ groups, test other = true → first.position ≤ other.position := by
    intro first found other member passes
    obtain ⟨_, before, after, split, fail⟩ := List.find?_eq_some_iff_append.mp found
    have ordered := index.pairwise_position
    rw [split] at member ordered
    rcases List.mem_append.mp member with earlier | later
    · have refused := fail other earlier
      rw [passes] at refused
      cases refused
    · rcases List.mem_cons.mp later with rfl | behind
      · exact Nat.le_refl _
      · have fromFirst := (List.pairwise_append.mp ordered).2.1
        exact Nat.le_of_lt ((List.pairwise_cons.mp fromFirst).1 other behind)
  constructor
  · intro found
    exact ⟨List.mem_of_find?_eq_some found, List.find?_some found, isLeast group found⟩
  · rintro ⟨member, passes, least⟩
    obtain ⟨first, found⟩ := Option.isSome_iff_exists.mp
      (List.find?_isSome.mpr ⟨group, member, passes⟩)
    have firstMember := List.mem_of_find?_eq_some found
    have samePosition := Nat.le_antisymm (isLeast first found group member passes)
      (least first firstMember (List.find?_some found))
    rw [found, index.eq_of_positions firstMember member samePosition]

/-- The function of a key starts with the first clause of the key. -/
theorem find?_key (index : Indexes clauses groups) (key : FunctionKey) :
    clauses.find? (·.key == key) = (groups.find? (·.key == key)).map (·.first) := by
  cases found : groups.find? (·.key == key) with
  | none =>
      rw [Option.map_none, List.find?_eq_none]
      intro clause member
      obtain ⟨group, groupMember, sameKey⟩ := List.mem_map.mp (index.declared clause member)
      rw [← sameKey]
      exact List.find?_eq_none.mp found group groupMember
  | some group =>
      obtain ⟨member, sameKey⟩ := mem_and_key_of_find? found
      have itsClauses := index.clauses_eq group member
      rw [sameKey] at itsClauses
      rw [Option.map_some, ← List.head?_filter, ← itsClauses]
      rfl

/-- A clause of a new key declares a function behind the others. -/
theorem declare (index : Indexes earlier groups) {clause : Clause}
    (isNew : groups.find? (·.key == clause.key) = none) :
    Indexes (earlier ++ [clause]) (groups ++ [FunctionGroup.ofClause groups.length clause]) := by
  have absent : ∀ group ∈ groups, group.key ≠ clause.key := by
    simpa using isNew
  have noClause : earlier.filter (·.key == clause.key) = [] := by
    rw [← List.head?_eq_none_iff, List.head?_filter, index.find?_key, isNew]
    rfl
  have newKey : (FunctionGroup.ofClause groups.length clause).key = clause.key := rfl
  have newClauses : (FunctionGroup.ofClause groups.length clause).clauses = [clause] := rfl
  refine ⟨?_, ?_, ?_, ?_, ?_, ?_, ?_⟩
  · intro group member
    rw [List.filter_append]
    rcases List.mem_append.mp member with old | isLast
    · rw [index.clauses_eq group old]
      simp [Ne.symm (absent group old)]
    · rw [List.mem_singleton.mp isLast, newKey, newClauses, noClause]
      simp
  · rw [List.map_append, List.nodup_append]
    refine ⟨index.keys_nodup, List.nodup_singleton _, ?_⟩
    intro key keyMember other otherMember
    obtain ⟨group, member, rfl⟩ := List.mem_map.mp keyMember
    rw [List.map_singleton, List.mem_singleton] at otherMember
    rw [otherMember]
    exact absent group member
  · intro other member
    rw [List.map_append, List.mem_append]
    rcases List.mem_append.mp member with old | isLast
    · exact Or.inl (index.declared other old)
    · rw [List.mem_singleton.mp isLast]
      exact Or.inr List.mem_cons_self
  · rw [List.map_append]
    exact index.firsts.append (List.Sublist.refl _)
  · intro group member other listed
    rcases List.mem_append.mp member with old | isLast
    · exact index.visible group old other listed
    · rw [List.mem_singleton.mp isLast, newClauses, List.mem_singleton] at listed
      rw [List.mem_singleton.mp isLast, listed]
      rfl
  · intro group member
    rcases List.mem_append.mp member with old | isLast
    · exact index.leastArity group old
    · rw [List.mem_singleton.mp isLast, FunctionGroup.HasLeastArity, newClauses]
      simp [FunctionGroup.ofClause]
  · rw [List.map_append, index.positions, List.length_append, List.length_singleton,
      List.range_succ]
    rfl

/-- A clause of a key that is there joins the function of the key. -/
theorem join (index : Indexes earlier groups) {clause : Clause} (member : group ∈ groups)
    (sameKey : group.key = clause.key) (agrees : group.visibility = clause.visibility) :
    Indexes (earlier ++ [clause]) (groups.map (·.reading clause)) := by
  have kept : ∀ {value : Type} (part : FunctionGroup → value),
      (∀ other : FunctionGroup, part (other.reading clause) = part other) →
        (groups.map (·.reading clause)).map part = groups.map part := by
    intro value part same
    rw [List.map_map]
    exact List.map_congr_left fun other _ => same other
  have keptKeys := kept (·.key) (FunctionGroup.key_reading clause)
  refine ⟨?_, ?_, ?_, ?_, ?_, ?_, ?_⟩
  · intro changed changedMember
    obtain ⟨other, otherMember, rfl⟩ := List.mem_map.mp changedMember
    rw [FunctionGroup.clauses_reading, index.clauses_eq other otherMember, List.filter_append,
      FunctionGroup.key_reading]
  · rw [keptKeys]
    exact index.keys_nodup
  · intro other otherMember
    rw [keptKeys]
    rcases List.mem_append.mp otherMember with old | isLast
    · exact index.declared other old
    · rw [List.mem_singleton.mp isLast, ← sameKey]
      exact List.mem_map_of_mem member
  · rw [kept (·.first) (FunctionGroup.first_reading clause)]
    exact index.firsts.trans (List.sublist_append_left _ _)
  · intro changed changedMember
    obtain ⟨other, otherMember, rfl⟩ := List.mem_map.mp changedMember
    intro listed inClauses
    rw [FunctionGroup.clauses_reading] at inClauses
    rw [FunctionGroup.visibility_reading]
    rcases List.mem_append.mp inClauses with old | isOwn
    · exact index.visible other otherMember listed old
    · obtain ⟨isLast, ownKey⟩ := List.mem_filter.mp isOwn
      rw [List.mem_singleton.mp isLast] at ownKey ⊢
      have same : group = other :=
        index.eq_of_key_eq member otherMember (sameKey.trans (beq_iff_eq.mp ownKey))
      rw [← same, agrees]
  · intro changed changedMember
    obtain ⟨other, otherMember, rfl⟩ := List.mem_map.mp changedMember
    exact (index.leastArity other otherMember).reading clause
  · rw [kept (·.position) (FunctionGroup.position_reading clause), List.length_map]
    exact index.positions

/-- A clause is read unless it differs from the first one of its key. -/
theorem insertClause (index : Indexes earlier groups) (clause : Clause) :
    (differsFromFirst earlier clause = true →
      insertClause groups clause = .error (.mixedVisibility clause.key clause.node.span)) ∧
    (differsFromFirst earlier clause = false →
      ∃ extended, StyleAudit.insertClause groups clause = .ok extended ∧
        Indexes (earlier ++ [clause]) extended) := by
  rw [differsFromFirst, index.find?_key, StyleAudit.insertClause]
  cases found : groups.find? (·.key == clause.key) with
  | none =>
      refine ⟨?_, ?_⟩
      · intro impossible
        cases impossible
      · intro _
        exact ⟨_, rfl, index.declare found⟩
  | some group =>
      obtain ⟨member, sameKey⟩ := mem_and_key_of_find? found
      have firstVisible : group.first.visibility = group.visibility :=
        index.visible group member group.first List.mem_cons_self
      rw [Option.map_some, Option.any_some, firstVisible, bne_iff_ne, bne_eq_false_iff_eq]
      refine ⟨?_, ?_⟩
      · intro differs
        exact if_neg differs
      · intro agrees
        exact ⟨_, if_pos agrees, index.join member sameKey agrees⟩

/-- Clauses are read up to the first one that differs from the first of its
key. -/
theorem foldlM (index : Indexes earlier groups) (rest : List Clause) :
    (∀ clause, rest.find? (differsFromFirst (earlier ++ rest)) = some clause →
      rest.foldlM StyleAudit.insertClause groups =
        .error (.mixedVisibility clause.key clause.node.span)) ∧
    (rest.find? (differsFromFirst (earlier ++ rest)) = none →
      ∃ final, rest.foldlM StyleAudit.insertClause groups = .ok final ∧
        Indexes (earlier ++ rest) final) := by
  induction rest generalizing earlier groups with
  | nil =>
      refine ⟨?_, ?_⟩
      · intro clause impossible
        cases impossible
      · intro _
        rw [List.append_nil]
        exact ⟨groups, rfl, index⟩
  | cons clause rest inductionHypothesis =>
      obtain ⟨stops, reads⟩ := index.insertClause clause
      rw [List.find?_cons, differsFromFirst_append, List.foldlM_cons]
      cases differs : differsFromFirst earlier clause with
      | true =>
          rw [stops differs]
          refine ⟨?_, ?_⟩
          · intro found same
            cases same
            rfl
          · intro impossible
            cases impossible
      | false =>
          obtain ⟨extended, inserted, extendedIndex⟩ := reads differs
          rw [inserted, Outcome.ok_bind, List.append_cons]
          exact inductionHypothesis extendedIndex

end Indexes

/-- Clauses cannot be joined when one of them differs from the first one of its
key, and the first of these is at fault. -/
theorem groupClauses_eq_error_iff {clauses : List Clause} {fault : ModuleFault} :
    groupClauses clauses = .error fault ↔
      ∃ clause, clauses.find? (differsFromFirst clauses) = some clause ∧
        fault = .mixedVisibility clause.key clause.node.span := by
  obtain ⟨stops, reads⟩ := Indexes.nil.foldlM clauses
  rw [List.nil_append] at stops reads
  rw [groupClauses]
  cases found : clauses.find? (differsFromFirst clauses) with
  | none =>
      obtain ⟨final, finished, _⟩ := reads found
      rw [finished]
      simp
  | some clause =>
      rw [stops clause found]
      simp [eq_comm]

/-- Clauses that can be joined are joined to the functions made of them. -/
theorem indexes_of_groupClauses {clauses : List Clause} {groups : List FunctionGroup}
    (grouped : groupClauses clauses = .ok groups) : Indexes clauses groups := by
  cases found : clauses.find? (differsFromFirst clauses) with
  | none =>
      obtain ⟨final, finished, index⟩ := (Indexes.nil.foldlM clauses).2 found
      have same : final = groups := Except.ok.inj (finished.symm.trans grouped)
      exact same ▸ index
  | some clause =>
      rw [groupClauses_eq_error_iff.mpr ⟨clause, found, rfl⟩] at grouped
      cases grouped

end StyleAudit
