import StyleAudit.Proofs.Tree.Accepted

/-!
# Where a dumped node is read

A node without a range of its own covers that of its parent. The shape of a
node does not depend on ranges (`shapeFault?_congr`), so the same dump is read
below any parent, as a tree that only differs in ranges
(`normalizeNode_elsewhere`), and as the same tree exactly when it has a range
of its own or the parents agree (`normalizeNode_elsewhere_eq_iff`).
-/

namespace StyleAudit

/-! ## Shapes without ranges -/

/-- A node of a kind and nothing else. -/
def Node.ofKind (kind : Kind) : Node :=
  ⟨kind, default, [], []⟩

theorem wrongLeading?_map (position : Nat) (leading : List (Option Kind)) (children : List Node) :
    wrongLeading? position leading (children.map fun child => Node.ofKind child.kind) =
      wrongLeading? position leading children := by
  induction leading generalizing position children with
  | nil => rw [wrongLeading?, wrongLeading?] <;> simp
  | cons expected leading inductionHypothesis =>
      cases children with
      | nil => rfl
      | cons child children =>
          cases expected with
          | none =>
              rw [List.map_cons, wrongLeading?, wrongLeading?, inductionHypothesis]
          | some kind =>
              rw [List.map_cons, wrongLeading?, wrongLeading?, inductionHypothesis]
              rfl

theorem withFault?_map (children : List Node) :
    withFault? (children.map fun child => Node.ofKind child.kind) = withFault? children := by
  have sameClauses :
      (children.map fun child => Node.ofKind child.kind).countP (·.kind == .withClause) =
        children.countP (·.kind == .withClause) := by
    rw [List.countP_map]
    rfl
  rw [withFault?, withFault?, sameClauses]
  simp only [← List.map_drop]
  cases children.drop (children.countP (·.kind == .withClause)) with
  | nil => rfl
  | cons first rest =>
      cases rest with
      | nil => rfl
      | cons last others =>
          cases others <;> rfl

/-- The check of shapes looks at the kinds of the children only. -/
theorem shapeFault?_map (kind : Kind) (attributes : Attributes) (children : List Node) :
    shapeFault? kind attributes (children.map fun child => Node.ofKind child.kind) =
      shapeFault? kind attributes children := by
  have sameArms :
      ((children.map fun child => Node.ofKind child.kind).drop 1).all (·.kind == .branch) =
        (children.drop 1).all (·.kind == .branch) := by
    rw [← List.map_drop, List.all_map]
    rfl
  simp only [shapeFault?, List.length_map, wrongLeading?_map, withFault?_map, sameArms]
  cases kind.onlyChildren? with
  | none => rfl
  | some only =>
      simp only [Option.bind_some, List.find?_map]
      have sameStray : (fun child : Node => child.kind != only) ∘
          (fun child : Node => Node.ofKind child.kind) = fun child => child.kind != only := rfl
      rw [sameStray]
      cases children.find? fun child => child.kind != only with
      | none => rfl
      | some stray => rfl

/-- The shape of a node depends on the kinds of its children only. -/
theorem shapeFault?_congr {kind : Kind} {attributes : Attributes} {children others : List Node}
    (same : children.map (·.kind) = others.map (·.kind)) :
    shapeFault? kind attributes children = shapeFault? kind attributes others := by
  rw [← shapeFault?_map kind attributes children, ← shapeFault?_map kind attributes others]
  have bare : ∀ ns : List Node,
      (ns.map fun child => Node.ofKind child.kind) = (ns.map (·.kind)).map Node.ofKind :=
    fun ns => by rw [List.map_map]; rfl
  rw [bare, bare, same]

/-! ## Other parents -/

theorem Node.mapSpansAll_eq_map (change : Span → Span) (ns : List Node) :
    mapSpansAll change ns = ns.map (mapSpans change) := by
  induction ns with
  | nil => rfl
  | cons n rest inductionHypothesis =>
      rw [mapSpansAll, inductionHypothesis, List.map_cons]

/-- Two trees only differ in source ranges. -/
def Node.SameButSpans (n m : Node) : Prop :=
  ∀ span, n.mapSpans (fun _ => span) = m.mapSpans (fun _ => span)

theorem Node.SameButSpans.kind_eq {n m : Node} (same : n.SameButSpans m) : n.kind = m.kind := by
  obtain ⟨kind, span, attributes, children⟩ := n
  obtain ⟨kind', span', attributes', children'⟩ := m
  have equal := same span
  rw [mapSpans, mapSpans] at equal
  exact (Node.mk.inj equal).1

/-- Nodes that agree in kind and attributes and whose children agree but for ranges
agree but for ranges. -/
theorem Node.sameButSpans_of_parts {n m : Node} (sameKind : n.kind = m.kind)
    (sameAttributes : n.attributes = m.attributes)
    (sameChildren : List.Forall₂ SameButSpans n.children m.children) : n.SameButSpans m := by
  obtain ⟨kind, span, attributes, children⟩ := n
  obtain ⟨kind', span', attributes', children'⟩ := m
  cases sameKind
  cases sameAttributes
  intro covered
  have bare : children.map (mapSpans fun _ => covered) =
      children'.map (mapSpans fun _ => covered) := by
    rw [← List.forall₂_eq_eq_eq, List.forall₂_map_left_iff, List.forall₂_map_right_iff]
    exact sameChildren.imp fun _ _ same => same covered
  rw [mapSpans, mapSpans, mapSpansAll_eq_map, mapSpansAll_eq_map, bare]

/-- What is read below one parent is read below every other one, with other
ranges at most. -/
theorem normalizeNode_elsewhere {file : String} {parent : Coordinates} {path : NodePath}
    {raw : Value} {n : Node} (accepted : normalizeNode file parent path raw = .ok n)
    (other : Coordinates) :
    ∃ moved, normalizeNode file other [] raw = .ok moved ∧ n.SameButSpans moved := by
  induction raw using Value.childInduction generalizing parent path n other with
  | step raw inductionHypothesis =>
      obtain ⟨entries, items, rfl, found, kindRead, inFile, coordinatesRead, attributesRead,
        childrenRead, shaped⟩ := normalizeNode_eq_ok_iff.mp accepted
      have placed : ∃ coordinates, readCoordinates entries other = .ok coordinates := by
        rw [readCoordinates] at coordinatesRead ⊢
        cases source : spanSource? entries with
        | none => exact ⟨other, rfl⟩
        | some fields =>
            rw [source] at coordinatesRead
            exact ⟨_, coordinatesRead⟩
      obtain ⟨coordinates, movedRead⟩ := placed
      obtain ⟨children, movedChildren, sameChildren⟩ :=
        Outcome.exists_forall₂_of_forall₂ childrenRead fun item member child childRead =>
          inductionHypothesis entries items rfl found item member childRead coordinates
      have sameKinds : n.children.map (·.kind) = children.map (·.kind) := by
        rw [← List.forall₂_eq_eq_eq, List.forall₂_map_left_iff, List.forall₂_map_right_iff]
        exact sameChildren.imp fun _ _ same => same.kind_eq
      refine ⟨⟨n.kind, ⟨file, coordinates⟩, n.attributes, children⟩,
        normalizeNode_eq_ok_iff.mpr ⟨entries, items, rfl, found, kindRead, rfl, movedRead,
          attributesRead, movedChildren, ?_⟩,
        Node.sameButSpans_of_parts rfl rfl sameChildren⟩
      rw [← shapeFault?_congr sameKinds]
      exact shaped

/-- A dumped node gives a source range of its own. -/
def HasOwnRange (raw : Value) : Prop :=
  ∃ entries, raw = .table entries ∧ (spanSource? entries).isSome

/-- A node is read as the same tree below two parents when it has a range of
its own, or when the parents cover the same range. -/
theorem normalizeNode_elsewhere_eq_iff {file : String} {parent other : Coordinates}
    {path : NodePath} {raw : Value} {n moved : Node}
    (accepted : normalizeNode file parent path raw = .ok n)
    (elsewhere : normalizeNode file other [] raw = .ok moved) :
    moved = n ↔ parent = other ∨ HasOwnRange raw := by
  obtain ⟨entries, items, rfl, found, kindRead, inFile, coordinatesRead, attributesRead,
    childrenRead, shaped⟩ := normalizeNode_eq_ok_iff.mp accepted
  cases source : spanSource? entries with
  | some fields =>
      have sameCoordinates : readCoordinates entries other = .ok n.span.coordinates := by
        rw [readCoordinates, source] at coordinatesRead ⊢
        exact coordinatesRead
      have same : normalizeNode file other [] (.table entries) = .ok n :=
        normalizeNode_eq_ok_iff.mpr ⟨entries, items, rfl, found, kindRead, inFile,
          sameCoordinates, attributesRead, childrenRead, shaped⟩
      rw [elsewhere] at same
      have owned : HasOwnRange (.table entries) := ⟨entries, rfl, by rw [source]; rfl⟩
      exact ⟨fun _ => Or.inr owned, fun _ => Except.ok.inj same⟩
  | none =>
      obtain ⟨_, _, sameEntries, _, _, _, movedRead, _⟩ := normalizeNode_eq_ok_iff.mp elsewhere
      cases sameEntries
      rw [readCoordinates, source] at coordinatesRead movedRead
      have inherited : n.span.coordinates = parent := (Except.ok.inj coordinatesRead).symm
      have movedInherited : moved.span.coordinates = other := (Except.ok.inj movedRead).symm
      constructor
      · intro same
        rw [← inherited, ← movedInherited, same]
        exact Or.inl rfl
      · intro found
        rcases found with rfl | ⟨_, sameTable, owned⟩
        · have again := normalizeNode_path path [] accepted
          rw [again] at elsewhere
          exact (Except.ok.inj elsewhere).symm
        · cases sameTable
          rw [source] at owned
          cases owned

/-- Siblings are read as the same trees below two parents when the parents cover
the same range or each sibling has a range of its own. -/
theorem siblings_elsewhere_eq_iff {file : String} {parent other : Coordinates}
    {items : List Value} {children moved : List Node}
    (read : List.Forall₂ (fun item child => normalizeNode file parent [] item = .ok child)
      items children)
    (elsewhere : List.Forall₂ (fun item child => normalizeNode file other [] item = .ok child)
      items moved) :
    moved = children ↔ parent = other ∨ ∀ item ∈ items, HasOwnRange item := by
  induction read generalizing moved with
  | nil =>
      cases elsewhere
      exact ⟨fun _ => Or.inr (List.forall_mem_nil _), fun _ => rfl⟩
  | cons here _ inductionHypothesis =>
      cases elsewhere with
      | cons movedHere movedOthers =>
          rw [List.cons.injEq, normalizeNode_elsewhere_eq_iff here movedHere,
            inductionHypothesis movedOthers, List.forall_mem_cons, ← or_and_left]

end StyleAudit
