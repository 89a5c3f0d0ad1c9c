import StyleAudit.Proofs.Outcome
import StyleAudit.Proofs.Tree.Preorder
import StyleAudit.Tree.Normalize

/-!
# Accepted dumps

`normalizeNode_eq_ok_iff` states when a dumped node is accepted and which tree
it is read as: its own parts can be read, its children are accepted one by one
below the coordinates of the node, and the whole has the shape of its kind.
The path of a node only appears in faults (`normalizeNode_path`).

Every node of an accepted tree has the shape of its kind
(`Node.isWellShaped_of_normalize`).
-/

namespace StyleAudit

/-- The dumped children of a node, if they are absent, null or a list. -/
def childList? (entries : List (String × Value)) : Option (List Value) :=
  match entries.lookup "children" with
  | none | some .null => some []
  | some (.list items) => some items
  | some _ => none

theorem childList?_cons_of_ne {key : String} {value : Value} {rest : List (String × Value)}
    (other : key ≠ "children") : childList? ((key, value) :: rest) = childList? rest := by
  rw [childList?, childList?, List.lookup_cons, beq_eq_false_iff_ne.mpr (Ne.symm other)]

theorem mem_entries_of_childList? {entries : List (String × Value)} {items : List Value}
    {item : Value} (found : childList? entries = some items) (member : item ∈ items) :
    ("children", Value.list items) ∈ entries := by
  rw [childList?] at found
  split at found
  · cases found
    cases member
  · cases found
    cases member
  · rename_i others isList
    cases found
    obtain ⟨before, after, split, _⟩ := List.lookup_eq_some_iff.mp isList
    rw [split]
    exact List.mem_append_right before List.mem_cons_self
  · cases found

/-- What holds of a dumped value whenever it holds of its dumped children holds
of every value. -/
theorem Value.childInduction {motive : Value → Prop}
    (step : ∀ raw : Value,
      (∀ entries items, raw = .table entries → childList? entries = some items →
        ∀ item ∈ items, motive item) → motive raw)
    (raw : Value) : motive raw :=
  step raw fun _entries _items _same _found item _member => childInduction step item
termination_by sizeOf raw
decreasing_by
  rw [_same]
  have itemSmaller := List.sizeOf_lt_of_mem _member
  have entrySmaller := List.sizeOf_lt_of_mem (mem_entries_of_childList? _found _member)
  simp only [Prod.mk.sizeOf_spec, Value.list.sizeOf_spec] at entrySmaller
  simp only [Value.table.sizeOf_spec]
  omega

theorem NodeFault.at_eq_ok_iff {α : Type} {path : NodePath} {span : Option Span}
    {read : Except NodeFault α} {found : α} :
    NodeFault.at path span read = .ok found ↔ read = .ok found := by
  cases read with
  | error fault =>
      constructor <;> intro impossible <;> cases impossible
  | ok value =>
      constructor <;> intro same <;> cases same <;> rfl

/-! ## Siblings -/

/-- Siblings are normalized one by one, each with its position on the path. -/
theorem normalizeItems_eq_ok_iff {file : String} {parent : Coordinates} {path : NodePath}
    {position : Nat} {items : List Value} {children : List Node} :
    normalizeItems file parent path position items = .ok children ↔
      List.Forall₂
        (fun indexed child => normalizeNode file parent (path ++ [indexed.2]) indexed.1 = .ok child)
        (items.zipIdx position) children := by
  induction items generalizing position children with
  | nil =>
      rw [normalizeItems, List.zipIdx_nil, List.forall₂_nil_left_iff]
      constructor
      · intro same
        cases same
        rfl
      · rintro rfl
        rfl
  | cons item rest inductionHypothesis =>
      rw [normalizeItems, List.zipIdx_cons, List.forall₂_cons_left_iff, Outcome.bind_eq_ok_iff]
      constructor
      · intro found
        rcases found with ⟨child, here, finished⟩
        obtain ⟨others, later, same⟩ := Outcome.bind_eq_ok_iff.mp finished
        cases same
        exact ⟨child, others, here, inductionHypothesis.mp later, rfl⟩
      · intro found
        rcases found with ⟨child, others, here, later, rfl⟩
        exact ⟨child, here,
          Outcome.bind_eq_ok_iff.mpr ⟨others, inductionHypothesis.mpr later, rfl⟩⟩

theorem normalizeChildren_eq_ok_iff {file : String} {coordinates : Coordinates}
    {path : NodePath} {entries : List (String × Value)} {children : List Node} :
    normalizeChildren file coordinates path entries = .ok children ↔
      ∃ items, childList? entries = some items ∧
        normalizeItems file coordinates path 0 items = .ok children := by
  induction entries with
  | nil =>
      simp [normalizeChildren, childList?, normalizeItems]
  | cons entry rest inductionHypothesis =>
      obtain ⟨key, value⟩ := entry
      by_cases isChildren : key = "children"
      · subst isChildren
        have found : List.lookup "children" (("children", value) :: rest) = some value :=
          List.lookup_cons_self
        cases value <;> simp [normalizeChildren, childList?, found, normalizeItems]
      · have passed : normalizeChildren file coordinates path ((key, value) :: rest) =
            normalizeChildren file coordinates path rest := by
          cases value <;> simp [normalizeChildren, isChildren]
        rw [passed, inductionHypothesis, childList?_cons_of_ne isChildren]

/-! ## Nodes -/

private theorem normalizeNode_table_eq_ok_iff {file : String} {parent : Coordinates}
    {path : NodePath} {entries : List (String × Value)} {n : Node} :
    normalizeNode file parent path (.table entries) = .ok n ↔
      readKind entries = .ok n.kind ∧ n.span.file = file ∧
        readCoordinates entries parent = .ok n.span.coordinates ∧
        readAttributes entries = .ok n.attributes ∧
        shapeFault? n.kind n.attributes n.children = none ∧
        ∃ items, childList? entries = some items ∧
          normalizeItems file n.span.coordinates path 0 items = .ok n.children := by
  rw [normalizeNode]
  simp only [Outcome.bind_eq_ok_iff, NodeFault.at_eq_ok_iff, normalizeChildren_eq_ok_iff]
  constructor
  · intro found
    rcases found with ⟨kind, kindRead, coordinates, coordinatesRead, attributes, attributesRead,
      children, childrenRead, shaped⟩
    cases fault : shapeFault? kind attributes children with
    | some found =>
        rw [fault] at shaped
        cases shaped
    | none =>
        rw [fault] at shaped
        cases shaped
        exact ⟨kindRead, rfl, coordinatesRead, attributesRead, fault, childrenRead⟩
  · intro found
    rcases found with ⟨kindRead, inFile, coordinatesRead, attributesRead, shaped, childrenRead⟩
    obtain ⟨kind, ⟨_, coordinates⟩, attributes, children⟩ := n
    cases inFile
    refine ⟨kind, kindRead, coordinates, coordinatesRead, attributes, attributesRead, children,
      childrenRead, ?_⟩
    rw [shaped]

/-- The path of a node does not decide what it is read as. -/
theorem normalizeNode_path {file : String} {parent : Coordinates} {raw : Value} {n : Node}
    (path other : NodePath) (accepted : normalizeNode file parent path raw = .ok n) :
    normalizeNode file parent other raw = .ok n := by
  induction raw using Value.childInduction generalizing parent path other n with
  | step raw inductionHypothesis =>
      cases raw with
      | table entries =>
          obtain ⟨kindRead, inFile, coordinatesRead, attributesRead, shaped, items, found,
            childrenRead⟩ := normalizeNode_table_eq_ok_iff.mp accepted
          refine normalizeNode_table_eq_ok_iff.mpr
            ⟨kindRead, inFile, coordinatesRead, attributesRead, shaped, items, found, ?_⟩
          rw [normalizeItems_eq_ok_iff] at childrenRead ⊢
          rw [List.forall₂_iff_zip] at childrenRead ⊢
          refine ⟨childrenRead.1, fun {indexed} {child} paired => ?_⟩
          have item : indexed.1 ∈ items :=
            List.fst_mem_of_mem_zipIdx (List.of_mem_zip paired).1
          exact inductionHypothesis entries items rfl found indexed.1 item _ _
            (childrenRead.2 paired)
      | _ =>
          rw [normalizeNode] at accepted
          · cases accepted
          · simp

/-- Siblings are read one by one. -/
private theorem normalizeItems_eq_ok_iff_forall₂ {file : String} {parent : Coordinates}
    {path : NodePath} {position : Nat} {items : List Value} {children : List Node} :
    normalizeItems file parent path position items = .ok children ↔
      List.Forall₂ (fun item child => normalizeNode file parent [] item = .ok child)
        items children := by
  rw [normalizeItems_eq_ok_iff]
  induction items generalizing position children with
  | nil =>
      rw [List.zipIdx_nil, List.forall₂_nil_left_iff, List.forall₂_nil_left_iff]
  | cons item rest inductionHypothesis =>
      rw [List.zipIdx_cons, List.forall₂_cons_left_iff, List.forall₂_cons_left_iff]
      constructor
      · intro found
        rcases found with ⟨child, others, here, later, same⟩
        exact ⟨child, others, normalizeNode_path _ _ here, inductionHypothesis.mp later, same⟩
      · intro found
        rcases found with ⟨child, others, here, later, same⟩
        exact ⟨child, others, normalizeNode_path _ _ here, inductionHypothesis.mpr later, same⟩

/-- A dumped node is read as `n`: its parts are those of `n`, its children are
read one by one below the coordinates of `n`, and `n` has the shape of its
kind. -/
theorem normalizeNode_eq_ok_iff {file : String} {parent : Coordinates} {path : NodePath}
    {raw : Value} {n : Node} :
    normalizeNode file parent path raw = .ok n ↔
      ∃ entries items, raw = .table entries ∧ childList? entries = some items ∧
        readKind entries = .ok n.kind ∧ n.span.file = file ∧
        readCoordinates entries parent = .ok n.span.coordinates ∧
        readAttributes entries = .ok n.attributes ∧
        List.Forall₂ (fun item child => normalizeNode file n.span.coordinates [] item = .ok child)
          items n.children ∧
        shapeFault? n.kind n.attributes n.children = none := by
  constructor
  · intro accepted
    cases raw with
    | table entries =>
        obtain ⟨kindRead, inFile, coordinatesRead, attributesRead, shaped, items, found,
          childrenRead⟩ := normalizeNode_table_eq_ok_iff.mp accepted
        exact ⟨entries, items, rfl, found, kindRead, inFile, coordinatesRead, attributesRead,
          normalizeItems_eq_ok_iff_forall₂.mp childrenRead, shaped⟩
    | _ =>
        rw [normalizeNode] at accepted
        · cases accepted
        · simp
  · intro found
    rcases found with ⟨entries, items, rfl, found, kindRead, inFile, coordinatesRead,
      attributesRead, childrenRead, shaped⟩
    exact normalizeNode_table_eq_ok_iff.mpr ⟨kindRead, inFile, coordinatesRead, attributesRead,
      shaped, items, found, normalizeItems_eq_ok_iff_forall₂.mpr childrenRead⟩

theorem Node.normalize_eq_ok_iff {raw : Value} {file : Option String} {n : Node} :
    Node.normalize raw file = .ok n ↔
      ∃ source, file.or (namedFile? raw) = some source ∧
        normalizeNode source .origin [] raw = .ok n := by
  cases raw with
  | table entries =>
      rw [Node.normalize]
      cases file.or (namedFile? (.table entries)) with
      | none => simp
      | some source => simp
  | _ =>
      constructor
      · intro impossible
        cases impossible
      · intro found
        rcases found with ⟨source, _, accepted⟩
        rw [normalizeNode] at accepted
        · cases accepted
        · simp

/-! ## Shapes -/

/-- What the shape of a kind demands of a node. -/
structure FitsShape (kind : Kind) (attributes : Attributes) (children : List Node) : Prop where
  enough : kind.shape.leastChildren ≤ children.length
  attributed : ∀ name ∈ kind.shape.required, attributes.has name = true
  led : wrongLeading? 0 kind.shape.leading children = none
  uniform : ∀ only, kind.onlyChildren? = some only → ∀ child ∈ children, child.kind = only
  visible : kind = .function →
    (attributes.lookup "visibility").any (·.isTextIn ["public", "private"]) = true
  closed : kind = .withExpr → withFault? children = none
  armed : kind = .caseExpr → (children.drop 1).all (·.kind == .branch) = true

/-- What passes the check of shapes has all attributes and children that its kind
requires. -/
theorem fitsShape_of_shapeFault? {kind : Kind} {attributes : Attributes} {children : List Node}
    (shaped : shapeFault? kind attributes children = none) :
    FitsShape kind attributes children := by
  unfold shapeFault? at shaped
  by_cases few : children.length < kind.shape.leastChildren
  · simp only [if_pos few] at shaped
    cases shaped
  · simp only [if_neg few] at shaped
    cases missing : kind.shape.required.find? fun name => !attributes.has name with
    | some name =>
        rw [missing] at shaped
        cases shaped
    | none =>
        rw [missing] at shaped
        cases led : wrongLeading? 0 kind.shape.leading children with
        | some wrong =>
            rw [led] at shaped
            cases shaped
        | none =>
            rw [led] at shaped
            cases stray : kind.onlyChildren?.bind fun only => children.find? (·.kind != only) with
            | some child =>
                rw [stray] at shaped
                cases shaped
            | none =>
                rw [stray] at shaped
                simp only at shaped
                refine ⟨Nat.not_lt.mp few, ?_, led, ?_, ?_, ?_, ?_⟩
                · simpa using missing
                · intro only restricted child member
                  rw [restricted, Option.bind_some] at stray
                  simpa using List.find?_eq_none.mp stray child member
                · rintro rfl
                  simpa using shaped
                · rintro rfl
                  exact shaped
                · rintro rfl
                  simpa using shaped

/-- Every node of the tree has the shape of its kind. -/
def Node.IsWellShaped (tree : Node) : Prop :=
  ∀ n ∈ tree.preorder, shapeFault? n.kind n.attributes n.children = none

theorem Node.IsWellShaped.of_mem {tree n : Node} (shaped : tree.IsWellShaped)
    (member : n ∈ tree.preorder) : n.IsWellShaped :=
  fun _ below => shaped _ (mem_preorder_trans below member)

theorem Node.IsWellShaped.fits {tree n : Node} (shaped : tree.IsWellShaped)
    (member : n ∈ tree.preorder) : FitsShape n.kind n.attributes n.children :=
  fitsShape_of_shapeFault? (shaped n member)

/-- A tree that was accepted is well shaped at every node. -/
theorem isWellShaped_of_normalizeNode {file : String} {parent : Coordinates} {path : NodePath}
    {raw : Value} {n : Node} (accepted : normalizeNode file parent path raw = .ok n) :
    n.IsWellShaped := by
  induction raw using Value.childInduction generalizing parent path n with
  | step raw inductionHypothesis =>
      obtain ⟨entries, items, rfl, found, _, _, _, _, childrenRead, shaped⟩ :=
        normalizeNode_eq_ok_iff.mp accepted
      intro m member
      rcases Node.mem_preorder_iff.mp member with rfl | ⟨child, childMember, below⟩
      · exact shaped
      · obtain ⟨item, itemMember, childRead⟩ :
            ∃ item ∈ items, normalizeNode file n.span.coordinates [] item = .ok child :=
          Outcome.exists_of_forall₂_of_mem_right childrenRead childMember
        exact inductionHypothesis entries items rfl found item itemMember childRead m below

/-- Every node of an accepted tree has the shape of its kind. -/
theorem Node.isWellShaped_of_normalize {raw : Value} {file : Option String} {tree : Node}
    (accepted : Node.normalize raw file = .ok tree) : tree.IsWellShaped := by
  obtain ⟨source, _, read⟩ := Node.normalize_eq_ok_iff.mp accepted
  exact isWellShaped_of_normalizeNode read

end StyleAudit
