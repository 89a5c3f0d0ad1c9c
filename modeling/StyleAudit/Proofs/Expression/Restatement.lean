import StyleAudit.Proofs.Expression.Meaning
import StyleAudit.Proofs.Nesting.Pattern

/-!
# The same notation twice

Structurally equal trees have the same kinds and the same names of variables, but their
literals may be equal as numbers only. Where the atoms and literals stand for the same
values (`Node.Restates`), both trees match the same values as patterns
(`Matches.of_restates`).
-/

namespace StyleAudit

variable {binding : Binding} {n left right : Node} {value : Datum}

/-! ## Atoms and literals -/

/-- The values of such nodes are read from their children. -/
def Kind.hasParts : Kind → Bool
  | tuple | list | map | pair | matchExpr => true
  | _ => false

/-- The atoms and literals of two trees stand for the same values, one by one. -/
inductive Node.SameScalars : Node → Node → Prop
  | leaf {left right : Node} (isLeaf : left.kind.hasParts = false)
      (same : right.scalar? = left.scalar?) : SameScalars left right
  | parts {left right : Node} (hasParts : left.kind.hasParts = true)
      (each : List.Forall₂ SameScalars left.children right.children) : SameScalars left right

/-- Structurally equal trees whose atoms and literals stand for the same values. -/
structure Node.Restates (left right : Node) : Prop where
  alike : left.structurallyEqual right = true
  scalars : left.SameScalars right

/-- A text equals nothing but itself. -/
theorem Attribute.eq_of_same_text {name : String} {other : Attribute}
    (same : (Attribute.one (.text name)).same other = true) : other = .one (.text name) := by
  cases other with
  | many values => cases same
  | one literal =>
      change Literal.same (.text name) literal = true at same
      cases literal with
      | text word =>
          have sameWord : name = word := beq_iff_eq.mp same
          rw [sameWord]
      | null => cases same
      | bool value => cases same
      | int value => cases same
      | float value => simp [Literal.same, Literal.equals, Literal.integer?] at same

theorem Attributes.exists_of_same {attributes others : Attributes}
    (same : attributes.same others = true) {name : String} {held : Attribute}
    (found : attributes.lookup name = some held) :
    ∃ other, others.lookup name = some other ∧ held.same other = true := by
  obtain ⟨before, after, split, _⟩ := List.lookup_eq_some_iff.mp found
  rw [Attributes.same, Bool.and_eq_true, List.all_eq_true] at same
  have listed := same.2 (name, held) (by rw [split]; simp)
  obtain ⟨other, alsoFound, alike⟩ := (Option.any_eq_true _ _).mp listed
  exact ⟨other, alsoFound, alike⟩

/-! ## Structurally equal trees -/

namespace Node

theorem structurallyEqualAll_iff {lefts rights : List Node} :
    structurallyEqualAll lefts rights = true ↔
      List.Forall₂ (fun left right => left.structurallyEqual right = true) lefts rights := by
  induction lefts generalizing rights with
  | nil => cases rights <;> simp [structurallyEqualAll]
  | cons left rest inductionHypothesis =>
      cases rights with
      | nil => simp [structurallyEqualAll]
      | cons right others => simp [structurallyEqualAll, inductionHypothesis]

theorem structurallyEqual_iff : left.structurallyEqual right = true ↔
    left.kind = right.kind ∧ left.attributes.same right.attributes = true ∧
      List.Forall₂ (fun left right => left.structurallyEqual right = true) left.children
        right.children := by
  rw [structurallyEqual_eq, Bool.and_eq_true, Bool.and_eq_true, beq_iff_eq, and_assoc,
    structurallyEqualAll_iff]

theorem kind_of_structurallyEqual (alike : left.structurallyEqual right = true) :
    right.kind = left.kind :=
  (structurallyEqual_iff.mp alike).1.symm

/-- The names of variables are compared as they are. -/
theorem varName?_of_structurallyEqual (alike : left.structurallyEqual right = true)
    {name : String} (named : left.varName? = some name) : right.varName? = some name := by
  obtain ⟨sameKind, sameAttributes, _⟩ := structurallyEqual_iff.mp alike
  have isVar := kind_of_varName? named
  rw [varName?, if_pos isVar, Option.bind_eq_some_iff] at named
  obtain ⟨held, found, isText⟩ := named
  obtain ⟨other, alsoFound, same⟩ := Attributes.exists_of_same sameAttributes found
  have heldIs : held = .one (.text name) := by
    cases held with
    | one literal => cases literal <;> cases isText; rfl
    | many values => cases isText
  subst heldIs
  rw [Attribute.eq_of_same_text same] at alsoFound
  rw [varName?, if_pos (sameKind.symm.trans isVar), alsoFound]
  rfl

theorem scalar?_of_hasParts (hasParts : n.kind.hasParts = true) : n.scalar? = none := by
  apply scalar?_eq_none
  · intro isAtom
    rw [isAtom] at hasParts
    cases hasParts
  · intro isLiteral
    rw [isLiteral] at hasParts
    cases hasParts

namespace Restates

theorem kind_eq (restates : left.Restates right) : right.kind = left.kind :=
  kind_of_structurallyEqual restates.alike

theorem varName?_eq {name : String} (restates : left.Restates right)
    (named : left.varName? = some name) : right.varName? = some name :=
  varName?_of_structurallyEqual restates.alike named

theorem scalar?_eq (restates : left.Restates right) : right.scalar? = left.scalar? := by
  cases restates.scalars with
  | leaf isLeaf same => exact same
  | parts hasParts =>
      rw [scalar?_of_hasParts hasParts, scalar?_of_hasParts (by rwa [restates.kind_eq])]

/-- A tree with parts is restated part by part. -/
theorem children (restates : left.Restates right) (hasParts : left.kind.hasParts = true) :
    List.Forall₂ Restates left.children right.children := by
  cases restates.scalars with
  | leaf isLeaf =>
      rw [hasParts] at isLeaf
      cases isLeaf
  | parts _ each =>
      have alike := (structurallyEqual_iff.mp restates.alike).2.2
      exact (Outcome.forall₂_and alike each).imp fun _ _ both => ⟨both.1, both.2⟩

/-- Of two pairs one has the same key and an item that restates the other one. -/
theorem keyedItem? (restates : left.Restates right) {entry : Scalar × Node}
    (isEntry : left.keyedItem? = some entry) :
    ∃ other, right.keyedItem? = some other ∧ other.1 = entry.1 ∧ entry.2.Restates other.2 := by
  obtain ⟨isPair, key, children, stands⟩ := keyedItem?_eq_some_iff.mp isEntry
  have each := restates.children (by rw [isPair]; rfl)
  rw [children] at each
  obtain ⟨otherKey, rest, sameKey, later, otherChildren⟩ := List.forall₂_cons_left_iff.mp each
  obtain ⟨item, last, sameItem, noMore, rfl⟩ := List.forall₂_cons_left_iff.mp later
  cases noMore
  refine ⟨(entry.1, item), ?_, rfl, sameItem⟩
  exact keyedItem?_eq_some_iff.mpr ⟨restates.kind_eq.trans isPair, otherKey, otherChildren,
    sameKey.scalar?_eq.trans stands⟩

theorem exists_entries (restates : left.Restates right) (isMap : left.kind = .map)
    {entries : List (Scalar × Node)} (has : left.HasEntries entries) :
    ∃ others, right.HasEntries others ∧
      List.Forall₂ (fun entry other : Scalar × Node => other.1 = entry.1 ∧
        entry.2.Restates other.2) entries others := by
  have each := restates.children (by rw [isMap]; rfl)
  have joined : List.Forall₂ (fun pair entry => ∃ other : Scalar × Node,
      Node.keyedItem? pair = some other ∧ other.1 = entry.1 ∧ entry.2.Restates other.2)
      right.children entries :=
    Outcome.forall₂_join each has fun _ _ _ _ _ same isEntry => same.keyedItem? isEntry
  exact Outcome.exists_forall₂_of_forall₂ joined fun _ _ _ found => found

theorem sides (restates : left.Restates right) (isMatch : left.kind = .matchExpr)
    {first second : Node} (sides : left.children = [first, second]) :
    ∃ first' second', right.children = [first', second'] ∧ first.Restates first' ∧
      second.Restates second' := by
  have each := restates.children (by rw [isMatch]; rfl)
  rw [sides] at each
  obtain ⟨first', rest, sameFirst, later, split⟩ := List.forall₂_cons_left_iff.mp each
  obtain ⟨second', last, sameSecond, noMore, rfl⟩ := List.forall₂_cons_left_iff.mp later
  cases noMore
  exact ⟨first', second', split, sameFirst, sameSecond⟩

end Restates
end Node

/-- A pattern that restates another one matches the same values. -/
theorem Matches.of_restates (holds : Matches binding left value)
    (restates : left.Restates right) : Matches binding right value := by
  induction left using Node.descendantInduction generalizing right value with
  | step left inductionHypothesis =>
      have items : ∀ {values : List Datum}, left.kind.hasParts = true →
          List.Forall₂ (Matches binding) left.children values →
          List.Forall₂ (Matches binding) right.children values := by
        intro values hasParts each
        refine Outcome.forall₂_join (restates.children hasParts) each ?_
        intro child member other _ found same here
        exact inductionHypothesis child member child (Node.mem_preorder_self child) here same
      cases holds with
      | blank isBlank => exact .blank (restates.varName?_eq isBlank)
      | bound named used => exact .bound (restates.varName?_eq named) used
      | scalar stands => exact .scalar (restates.scalar?_eq.trans stands)
      | tuple isTuple each =>
          exact .tuple (restates.kind_eq.trans isTuple) (items (by rw [isTuple]; rfl) each)
      | list isList each =>
          exact .list (restates.kind_eq.trans isList) (items (by rw [isList]; rfl) each)
      | @map _ entries found isMap pairs has each =>
          obtain ⟨others, otherPairs, same⟩ := restates.exists_entries isMap pairs
          have origin : ∀ other ∈ others, ∃ entry ∈ entries, other.1 = entry.1 ∧
              entry.2.Restates other.2 := by
            intro other member
            exact Outcome.exists_of_forall₂_of_mem_right same member
          refine .map (restates.kind_eq.trans isMap) otherPairs ?_ ?_
          · intro other member
            obtain ⟨entry, isEntry, sameKey, _⟩ := origin other member
            rw [sameKey]
            exact has entry isEntry
          · intro other member item isItem
            obtain ⟨entry, isEntry, sameKey, sameItem⟩ := origin other member
            obtain ⟨child, isChild, inside⟩ := pairs.exists_child isEntry
            rw [sameKey] at isItem
            exact inductionHypothesis child isChild entry.2 inside
              (each entry isEntry item isItem) sameItem
      | @both _ first second _ isMatch sides firstHolds secondHolds =>
          obtain ⟨first', second', otherSides, sameFirst, sameSecond⟩ :=
            restates.sides isMatch sides
          have isFirst : first ∈ left.children := by simp [sides]
          have isSecond : second ∈ left.children := by simp [sides]
          exact .both (restates.kind_eq.trans isMatch) otherSides
            (inductionHypothesis first isFirst first (Node.mem_preorder_self first) firstHolds
              sameFirst)
            (inductionHypothesis second isSecond second (Node.mem_preorder_self second)
              secondHolds sameSecond)

end StyleAudit
