import StyleAudit.Proofs.Module.Rearranged

/-!
# Functions with shuffled clauses

The clauses of one function can be exchanged among the positions where they stand
(`Node.ShufflesClauses`). The module can still be indexed, its other functions have the same
clauses, and this one has the same clauses in another order (`exists_ofModule_of_shuffles`).
-/

namespace StyleAudit

/-- The forms of the module with the clauses of a function in another order at the positions
of these clauses. -/
structure Node.ShufflesClauses (m : Node) (group : FunctionGroup) (forms : List Node) :
    Prop where
  shuffled : (group.clauses.map fun clause => forms[clause.position]?).Perm
    (group.clauses.map fun clause => some clause.node)
  others : ∀ position, (∀ clause ∈ group.clauses, clause.position ≠ position) →
    forms[position]? = m.children[position]?

/-- The function has the forms of the other one in another order, at the same positions. -/
structure FunctionGroup.ShuffledTo (group shuffled : FunctionGroup) : Prop where
  key : shuffled.key = group.key
  positions : shuffled.clauses.map (·.position) = group.clauses.map (·.position)
  forms : (shuffled.clauses.map (·.node)).Perm (group.clauses.map (·.node))

/-! ## Items in another order at some positions -/

section Shuffled

variable {item : Type} {items others : List item}

theorem map_getElem?_range (items : List item) :
    (List.range items.length).map (items[·]?) = items.map some := by
  apply List.ext_getElem?
  intro position
  rw [List.getElem?_map, List.getElem?_map]
  by_cases inRange : position < items.length
  · rw [List.getElem?_range inRange, List.getElem?_eq_getElem inRange]
    simp [inRange]
  · have beyond : items.length ≤ position := Nat.le_of_not_lt inRange
    rw [List.getElem?_eq_none (by rwa [List.length_range]), List.getElem?_eq_none beyond]
    rfl

variable {positions : List Nat}

theorem length_eq_of_shuffled (inRange : ∀ position ∈ positions, position < items.length)
    (shuffled : (positions.map (others[·]?)).Perm (positions.map (items[·]?)))
    (elsewhere : ∀ position ∉ positions, others[position]? = items[position]?) :
    others.length = items.length := by
  have stillInRange : ∀ position ∈ positions, position < others.length := by
    intro position member
    obtain ⟨other, otherMember, found⟩ := List.mem_map.mp
      (shuffled.mem_iff.mp (List.mem_map_of_mem member))
    rw [List.getElem?_eq_getElem (inRange other otherMember)] at found
    exact (List.getElem?_eq_some_iff.mp found.symm).1
  have sameRange : ∀ position, position < others.length ↔ position < items.length := by
    intro position
    by_cases member : position ∈ positions
    · exact iff_of_true (stillInRange position member) (inRange position member)
    · rw [← not_iff_not, not_lt, not_lt, ← List.getElem?_eq_none_iff, elsewhere position member,
        List.getElem?_eq_none_iff]
  refine Nat.le_antisymm (Nat.le_of_not_lt fun longer => ?_) (Nat.le_of_not_lt fun longer => ?_)
  · exact lt_irrefl _ ((sameRange _).mp longer)
  · exact lt_irrefl _ ((sameRange _).mpr longer)

/-- Items that are exchanged among some positions are the same items. -/
theorem perm_of_shuffled (once : positions.Nodup)
    (inRange : ∀ position ∈ positions, position < items.length)
    (shuffled : (positions.map (others[·]?)).Perm (positions.map (items[·]?)))
    (elsewhere : ∀ position ∉ positions, others[position]? = items[position]?) :
    others.Perm items := by
  -- The shuffled positions come first, and the others behind them.
  have range : (positions ++
      (List.range items.length).filter fun position => !decide (position ∈ positions)).Perm
        (List.range items.length) := by
    refine List.Perm.trans (List.Perm.append_right _ ?_) (List.filter_append_perm
      (fun position => decide (position ∈ positions)) (List.range items.length))
    rw [List.perm_ext_iff_of_nodup once (List.nodup_range.filter _)]
    intro position
    rw [List.mem_filter, List.mem_range, decide_eq_true_eq]
    exact ⟨fun member => ⟨inRange position member, member⟩, fun both => both.2⟩
  have others_eq : ((List.range items.length).filter fun position =>
      !decide (position ∈ positions)).map (others[·]?) =
        ((List.range items.length).filter fun position =>
          !decide (position ∈ positions)).map (items[·]?) := by
    refine List.map_congr_left fun position member => elsewhere position ?_
    simpa using (List.mem_filter.mp member).2
  rw [← List.map_perm_map_iff (Option.some_injective item), ← map_getElem?_range,
    ← map_getElem?_range, length_eq_of_shuffled inRange shuffled elsewhere]
  refine (range.map _).symm.trans (List.Perm.trans ?_ (range.map _))
  rw [List.map_append, List.map_append, others_eq]
  exact shuffled.append_right _

end Shuffled

variable {isNested : String → Bool} {m : Node} {scope : ModuleScope} {forms : List Node}
  {groups regrouped : List FunctionGroup} {group : FunctionGroup}

theorem Indexes.pairwise_clauses (index : Indexes (clausesOf forms) groups)
    (member : group ∈ groups) :
    group.clauses.Pairwise fun earlier later => earlier.position < later.position := by
  rw [index.clauses_eq group member]
  exact (pairwise_position_clausesOf forms).filter _

theorem Indexes.pairwise_positions (index : Indexes (clausesOf forms) groups)
    (member : group ∈ groups) : (group.clauses.map (·.position)).Pairwise (· < ·) :=
  List.pairwise_map.mpr (index.pairwise_clauses member)

theorem Indexes.mem_positions_iff (index : Indexes (clausesOf forms) groups)
    (member : group ∈ groups) {position : Nat} :
    position ∈ group.clauses.map (·.position) ↔ ∃ form, forms[position]? = some form ∧
      form.kind = .function ∧ form.functionKey = group.key := by
  rw [List.mem_map]
  constructor
  · rintro ⟨clause, listed, rfl⟩
    exact ⟨clause.node, (index.mem_clauses_iff member).mp listed⟩
  · rintro ⟨form, isClause⟩
    exact ⟨⟨position, form⟩, (index.mem_clauses_iff member).mpr isClause, rfl⟩

theorem Indexes.exists_group_of_key (index : Indexes (clausesOf forms) groups) (clause : Clause)
    (found : forms[clause.position]? = some clause.node)
    (isFunction : clause.node.kind = .function) : ∃ group ∈ groups, group.key = clause.key :=
  List.mem_map.mp (index.declared clause (mem_clausesOf_iff.mpr ⟨found, isFunction⟩))

namespace Node.ShufflesClauses

theorem exists_clause (shuffles : m.ShufflesClauses group forms) {clause : Clause}
    (listed : clause ∈ group.clauses) :
    ∃ other ∈ group.clauses, forms[clause.position]? = some other.node := by
  obtain ⟨other, otherListed, found⟩ := List.mem_map.mp
    (shuffles.shuffled.mem_iff.mp (List.mem_map_of_mem listed))
  exact ⟨other, otherListed, found.symm⟩

/-- Exchanging clauses of a function rearranges the forms of the module. -/
theorem perm (shuffles : m.ShufflesClauses group forms)
    (index : Indexes (clausesOf m.children) groups) (member : group ∈ groups) :
    forms.Perm m.children := by
  have here : ∀ clause ∈ group.clauses, m.children[clause.position]? = some clause.node :=
    fun clause listed => ((index.mem_clauses_iff member).mp listed).1
  have once : (group.clauses.map (·.position)).Nodup :=
    (index.pairwise_positions member).imp Nat.ne_of_lt
  refine perm_of_shuffled once ?_ ?_ ?_
  · intro position isShuffled
    obtain ⟨clause, listed, rfl⟩ := List.mem_map.mp isShuffled
    exact (List.getElem?_eq_some_iff.mp (here clause listed)).1
  · rw [List.map_map, List.map_map]
    refine shuffles.shuffled.trans (List.Perm.of_eq ?_)
    exact List.map_congr_left fun clause listed => (here clause listed).symm
  · intro position isOther
    refine shuffles.others position fun clause listed samePosition => isOther ?_
    exact samePosition ▸ List.mem_map_of_mem listed

/-- A clause of the function stands at a position after as before. -/
theorem mem_positions_iff (shuffles : m.ShufflesClauses group forms)
    (index : Indexes (clausesOf m.children) groups) (member : group ∈ groups) {position : Nat} :
    position ∈ group.clauses.map (·.position) ↔ ∃ form, forms[position]? = some form ∧
      form.kind = .function ∧ form.functionKey = group.key := by
  constructor
  · intro isShuffled
    obtain ⟨clause, listed, rfl⟩ := List.mem_map.mp isShuffled
    obtain ⟨other, otherListed, found⟩ := shuffles.exists_clause listed
    exact ⟨other.node, found, ((index.mem_clauses_iff member).mp otherListed).2⟩
  · rintro ⟨form, found, isClause⟩
    by_contra isOther
    rw [shuffles.others position fun clause listed samePosition =>
      isOther (samePosition ▸ List.mem_map_of_mem listed)] at found
    exact isOther ((index.mem_positions_iff member).mpr ⟨form, found, isClause⟩)

/-- After an exchange the function is found again, with its clauses in another order. -/
theorem exists_shuffledTo (shuffles : m.ShufflesClauses group forms)
    (index : Indexes (clausesOf m.children) groups)
    (indexAgain : Indexes (clausesOf forms) regrouped) (member : group ∈ groups) :
    ∃ shuffled ∈ regrouped, group.ShuffledTo shuffled := by
  have firstListed : group.first.position ∈ group.clauses.map (·.position) :=
    List.mem_map_of_mem List.mem_cons_self
  obtain ⟨form, found, isFunction, itsKey⟩ :=
    (shuffles.mem_positions_iff index member).mp firstListed
  obtain ⟨shuffled, shuffledMember, sameKey⟩ :=
    indexAgain.exists_group_of_key ⟨group.first.position, form⟩ found isFunction
  have key : shuffled.key = group.key := sameKey.trans itsKey
  have positions : shuffled.clauses.map (·.position) = group.clauses.map (·.position) := by
    have ordered := index.pairwise_positions member
    have orderedAgain := indexAgain.pairwise_positions shuffledMember
    have samePositions : (shuffled.clauses.map (·.position)).Perm
        (group.clauses.map (·.position)) := by
      rw [List.perm_ext_iff_of_nodup (orderedAgain.imp Nat.ne_of_lt) (ordered.imp Nat.ne_of_lt)]
      intro position
      rw [indexAgain.mem_positions_iff shuffledMember, key,
        shuffles.mem_positions_iff index member]
    exact samePositions.eq_of_pairwise (fun _ _ _ _ before after => absurd after before.asymm)
      orderedAgain ordered
  refine ⟨shuffled, shuffledMember, key, positions, ?_⟩
  rw [← List.map_perm_map_iff (Option.some_injective Node), List.map_map, List.map_map]
  have found : shuffled.clauses.map (some ∘ (·.node)) =
      (shuffled.clauses.map (·.position)).map (forms[·]?) := by
    rw [List.map_map]
    exact List.map_congr_left fun clause listed =>
      ((indexAgain.mem_clauses_iff shuffledMember).mp listed).1.symm
  rw [found, positions, List.map_map]
  exact shuffles.shuffled

/-- The other functions have the same clauses. -/
theorem exists_clauses_eq (shuffles : m.ShufflesClauses group forms)
    (index : Indexes (clausesOf m.children) groups)
    (indexAgain : Indexes (clausesOf forms) regrouped) (member : group ∈ groups)
    {other : FunctionGroup} (otherMember : other ∈ groups) (isOther : other ≠ group) :
    ∃ kept ∈ regrouped, kept.key = other.key ∧ kept.clauses = other.clauses := by
  have otherKey : other.key ≠ group.key := fun sameKey =>
    isOther (index.eq_of_key_eq otherMember member sameKey)
  -- What is a clause of the other function stands at none of the shuffled positions.
  have sameForm : ∀ clause : Clause, clause.key = other.key →
      (forms[clause.position]? = some clause.node ∧ clause.node.kind = .function ↔
        m.children[clause.position]? = some clause.node ∧ clause.node.kind = .function) := by
    intro clause itsKey
    by_cases isShuffled : clause.position ∈ group.clauses.map (·.position)
    · obtain ⟨form, found, -, formKey⟩ := (shuffles.mem_positions_iff index member).mp isShuffled
      obtain ⟨before, foundBefore, -, beforeKey⟩ := (index.mem_positions_iff member).mp isShuffled
      rw [found, foundBefore, Option.some.injEq, Option.some.injEq]
      constructor
      · rintro ⟨rfl, -⟩
        exact absurd (itsKey.symm.trans formKey) otherKey
      · rintro ⟨rfl, -⟩
        exact absurd (itsKey.symm.trans beforeKey) otherKey
    · have unchanged : forms[clause.position]? = m.children[clause.position]? := by
        refine shuffles.others _ fun shuffled listed samePosition => isShuffled ?_
        rw [← samePosition]
        exact List.mem_map_of_mem listed
      rw [unchanged]
  obtain ⟨here, isFunction, itsKey⟩ :=
    (index.mem_clauses_iff otherMember).mp (List.mem_cons_self : other.first ∈ other.clauses)
  obtain ⟨found, -⟩ := (sameForm other.first itsKey).mpr ⟨here, isFunction⟩
  obtain ⟨kept, keptMember, keptKey⟩ := indexAgain.exists_group_of_key other.first found isFunction
  have key : kept.key = other.key := keptKey.trans itsKey
  refine ⟨kept, keptMember, key, ?_⟩
  have ordered := index.pairwise_clauses otherMember
  have orderedAgain := indexAgain.pairwise_clauses keptMember
  have sameClauses : kept.clauses.Perm other.clauses := by
    have once := (index.pairwise_positions otherMember).imp Nat.ne_of_lt
    have onceAgain := (indexAgain.pairwise_positions keptMember).imp Nat.ne_of_lt
    rw [List.perm_ext_iff_of_nodup (List.Nodup.of_map _ onceAgain) (List.Nodup.of_map _ once)]
    intro clause
    rw [indexAgain.mem_clauses_iff keptMember, index.mem_clauses_iff otherMember, key,
      ← and_assoc, ← and_assoc]
    exact and_congr_left fun itsKey => sameForm clause itsKey
  exact sameClauses.eq_of_pairwise (fun _ _ _ _ before after => absurd after before.asymm)
    orderedAgain ordered

end Node.ShufflesClauses

/-- A module with shuffled clauses of one function can be indexed. Its functions are the same
but for this one, which has its clauses in another order. -/
theorem exists_ofModule_of_shuffles (indexed : ModuleScope.ofModule isNested m = .ok scope)
    (member : group ∈ scope.functions) (shuffles : m.ShufflesClauses group forms) :
    ∃ rebuilt, ModuleScope.ofModule isNested { m with children := forms } = .ok rebuilt ∧
      (∃ shuffled ∈ rebuilt.functions, group.ShuffledTo shuffled) ∧
      ∀ other ∈ scope.functions, other ≠ group →
        ∃ kept ∈ rebuilt.functions, kept.key = other.key ∧ kept.clauses = other.clauses := by
  have index := indexes_of_ofModule indexed
  obtain ⟨rebuilt, indexedAgain⟩ :=
    exists_ofModule_of_perm indexed (shuffles.perm index member)
  have indexAgain := indexes_of_ofModule indexedAgain
  refine ⟨rebuilt, indexedAgain, shuffles.exists_shuffledTo index indexAgain member, ?_⟩
  intro other otherMember isOther
  exact shuffles.exists_clauses_eq index indexAgain member otherMember isOther

end StyleAudit
