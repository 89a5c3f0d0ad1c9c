import Mathlib.Data.List.Perm.Subperm
import StyleAudit.Proofs.Expression.Restatement
import StyleAudit.Proofs.Tree.Names
import StyleAudit.Proofs.Tree.Position
import StyleAudit.Proofs.Tree.Worth

/-!
# Structural equality

`Node.placeless` leaves out the places of a tree and shows its attributes by name.
Trees are structurally equal when these are the same once every literal is replaced
by what it counts as (`Node.structurallyEqual_iff_placeless`). So trees that are the
same up to their places are structurally equal, and structurally equal trees are the
same unless a number is written in two ways at some place (`Node.Respells`). Comparing
pairs of nodes with a stack comes to the same (`Node.agreeThroughout_eq_all`).
-/

namespace StyleAudit

/-! ## Sets of attributes -/

/-- Sets of attributes are the same when they have the same names and count as the
same under each. -/
theorem Attributes.same_iff {left right : Attributes} (once : (left.map (·.1)).Nodup)
    (otherOnce : (right.map (·.1)).Nodup) :
    left.same right = true ↔
      ∀ name, (left.lookup name).map Attribute.worth = (right.lookup name).map Attribute.worth := by
  constructor
  · intro same name
    cases found : left.lookup name with
    | some held =>
        obtain ⟨other, alsoFound, alike⟩ := Attributes.exists_of_same same found
        rw [alsoFound, Option.map_some, Option.map_some, Attribute.same_iff.mp alike]
    | none =>
        -- As there are equally many names, the right side has none that the left one lacks.
        have within : left.map (·.1) ⊆ right.map (·.1) := by
          intro other listed
          obtain ⟨held, there⟩ := mem_keys_iff.mp listed
          obtain ⟨value, alsoThere, _⟩ := Attributes.exists_of_same same there
          exact mem_keys_iff.mpr ⟨value, alsoThere⟩
        have sameLength : left.length = right.length := by
          rw [Attributes.same, Bool.and_eq_true, beq_iff_eq] at same
          exact same.1
        have perm : (left.map (·.1)).Perm (right.map (·.1)) :=
          (List.subperm_of_subset once within).perm_of_length_le (by simp [sameLength])
        cases alsoFound : right.lookup name with
        | none => rfl
        | some other =>
            have listed := perm.mem_iff.mpr (mem_keys_iff.mpr ⟨other, alsoFound⟩)
            obtain ⟨held, there⟩ := mem_keys_iff.mp listed
            rw [found] at there
            cases there
  · intro alike
    have sameNames : ∀ name, name ∈ left.map (·.1) ↔ name ∈ right.map (·.1) := by
      intro name
      simp only [mem_keys_iff, ← Option.isSome_iff_exists]
      rw [← Option.isSome_map (f := Attribute.worth), alike name, Option.isSome_map]
    have perm : (left.map (·.1)).Perm (right.map (·.1)) :=
      (List.perm_ext_iff_of_nodup once otherOnce).mpr sameNames
    rw [Attributes.same, Bool.and_eq_true, beq_iff_eq, List.all_eq_true]
    refine ⟨by simpa using perm.length_eq, ?_⟩
    rintro ⟨name, held⟩ member
    have here := alike name
    rw [lookup_of_mem once member, Option.map_some, eq_comm, Option.map_eq_some_iff] at here
    obtain ⟨other, found, counts⟩ := here
    simp [found, Attribute.same_iff, counts]

/-! ## Trees without places -/

/-- A tree without places. Of every attribute it has what a reader of attributes
makes of it. -/
inductive Placeless (α : Type)
  | node (kind : Kind) (attributes : String → Option α) (children : List (Placeless α))

namespace Node

variable {α : Type} {read : Attribute → α} {left right n : Node}

mutual

/-- The tree without its places. -/
def placeless (read : Attribute → α) : Node → Placeless α
  | ⟨kind, _, attributes, children⟩ =>
    .node kind (fun name => (attributes.lookup name).map read) (placelessAll read children)
  termination_by structural n => n

/-- Several trees without their places. -/
def placelessAll (read : Attribute → α) : List Node → List (Placeless α)
  | [] => []
  | n :: rest => placeless read n :: placelessAll read rest
  termination_by structural ns => ns

end

theorem placelessAll_eq_iff {lefts rights : List Node} :
    placelessAll read lefts = placelessAll read rights ↔
    List.Forall₂ (fun left right => left.placeless read = right.placeless read) lefts rights := by
  induction lefts generalizing rights with
  | nil => cases rights <;> simp [placelessAll]
  | cons left rest inductionHypothesis =>
      cases rights with
      | nil => simp [placelessAll]
      | cons right others => simp [placelessAll, inductionHypothesis]

theorem placeless_eq_iff : left.placeless read = right.placeless read ↔
    left.kind = right.kind ∧
      (∀ name, (left.attributes.lookup name).map read = (right.attributes.lookup name).map read) ∧
      List.Forall₂ (fun left right => left.placeless read = right.placeless read) left.children
        right.children := by
  obtain ⟨kind, _, attributes, children⟩ := left
  obtain ⟨otherKind, _, others, otherChildren⟩ := right
  rw [placeless, placeless, Placeless.node.injEq, placelessAll_eq_iff, funext_iff]

theorem NamesOnce.of_mem_children {child : Node} (once : n.NamesOnce)
    (member : child ∈ n.children) : child.NamesOnce :=
  fun m below => once m (mem_preorder_trans below (mem_preorder_of_mem_children member))

/-- Two trees are equal by the test exactly when they agree without their places and
with every attribute replaced by its worth. -/
theorem structurallyEqual_iff_placeless (once : left.NamesOnce) (otherOnce : right.NamesOnce) :
    left.structurallyEqual right = true ↔
      left.placeless Attribute.worth = right.placeless Attribute.worth := by
  induction left using childInduction generalizing right with
  | step left inductionHypothesis =>
      rw [structurallyEqual_iff, placeless_eq_iff,
        Attributes.same_iff (once left (mem_preorder_self left))
          (otherOnce right (mem_preorder_self right))]
      refine and_congr_right fun _ => and_congr_right fun _ => ?_
      have each : ∀ child ∈ left.children, ∀ other ∈ right.children,
          (child.structurallyEqual other = true ↔
            child.placeless Attribute.worth = other.placeless Attribute.worth) :=
        fun child member other otherMember => inductionHypothesis child member
          (once.of_mem_children member) (otherOnce.of_mem_children otherMember)
      constructor <;> intro pairs
      · exact Outcome.forall₂_imp_mem pairs fun child member other otherMember =>
          (each child member other otherMember).mp
      · exact Outcome.forall₂_imp_mem pairs fun child member other otherMember =>
          (each child member other otherMember).mpr

/-! ## Numbers written in two ways -/

/-- At some place an attribute of both trees writes a number in two ways. -/
def Respells (left right : Node) : Prop :=
  ∃ path n m name held other, left.at? path = some n ∧ right.at? path = some m ∧
    n.attributes.lookup name = some held ∧ m.attributes.lookup name = some other ∧
    held.Respells other

theorem Respells.of_children {child other : Node} {position : Nat}
    (found : left.children[position]? = some child)
    (otherFound : right.children[position]? = some other) (below : child.Respells other) :
    left.Respells right := by
  obtain ⟨path, n, m, name, held, value, reached, alsoReached, rest⟩ := below
  refine ⟨position :: path, n, m, name, held, value, ?_, ?_, rest⟩
  · rw [at?_cons found, reached]
  · rw [at?_cons otherFound, alsoReached]

/-- Trees that are worth the same and are not the same write some number in two ways. -/
theorem respells_of_placeless_ne
    (alike : left.placeless Attribute.worth = right.placeless Attribute.worth)
    (other : left.placeless id ≠ right.placeless id) : left.Respells right := by
  induction left using childInduction generalizing right with
  | step left inductionHypothesis =>
      obtain ⟨sameKind, sameWorth, each⟩ := placeless_eq_iff.mp alike
      by_cases sameAttributes :
          ∀ name, left.attributes.lookup name = right.attributes.lookup name
      · -- The trees differ below a child.
        have differ : ¬List.Forall₂ (fun child other => child.placeless id = other.placeless id)
            left.children right.children := by
          intro same
          exact other (placeless_eq_iff.mpr ⟨sameKind, by simpa using sameAttributes, same⟩)
        rw [List.forall₂_iff_get] at each differ
        push Not at differ
        obtain ⟨position, inside, otherInside, childDiffers⟩ := differ each.1
        exact .of_children (List.getElem?_eq_getElem inside)
          (List.getElem?_eq_getElem otherInside)
          (inductionHypothesis _ (List.getElem_mem inside) (each.2 position inside otherInside)
            childDiffers)
      · rw [not_forall] at sameAttributes
        obtain ⟨name, differ⟩ := sameAttributes
        have here := sameWorth name
        cases found : left.attributes.lookup name with
        | none =>
            rw [found, Option.map_none, eq_comm, Option.map_eq_none_iff] at here
            exact absurd (found.trans here.symm) differ
        | some held =>
            rw [found, Option.map_some, eq_comm, Option.map_eq_some_iff] at here
            obtain ⟨value, alsoFound, counts⟩ := here
            refine ⟨[], left, right, name, held, value, rfl, rfl, found, alsoFound, ?_⟩
            apply Attribute.respells_of_worth_eq counts.symm
            rintro rfl
            exact differ (found.trans alsoFound.symm)

/-- Trees that agree without their places agree at every position. -/
theorem at?_placeless_eq {path : NodePath} {m : Node}
    (same : left.placeless read = right.placeless read)
    (reached : left.at? path = some n) (alsoReached : right.at? path = some m) :
    n.placeless read = m.placeless read := by
  induction path generalizing left right with
  | nil =>
      cases reached
      cases alsoReached
      exact same
  | cons position way inductionHypothesis =>
      obtain ⟨child, found, below⟩ := at?_cons_eq_some_iff.mp reached
      obtain ⟨other, otherFound, otherBelow⟩ := at?_cons_eq_some_iff.mp alsoReached
      have each := List.forall₂_iff_get.mp (placeless_eq_iff.mp same).2.2
      obtain ⟨inside, rfl⟩ := List.getElem?_eq_some_iff.mp found
      obtain ⟨otherInside, rfl⟩ := List.getElem?_eq_some_iff.mp otherFound
      exact inductionHypothesis (each.2 position inside otherInside) below otherBelow

theorem Respells.placeless_ne (respells : left.Respells right) :
    left.placeless id ≠ right.placeless id := by
  obtain ⟨path, n, m, name, held, other, reached, alsoReached, found, alsoFound, twoWays⟩ :=
    respells
  intro same
  have here := (placeless_eq_iff.mp (at?_placeless_eq same reached alsoReached)).2.1 name
  rw [found, alsoFound] at here
  exact twoWays.ne (Option.some.inj here)

theorem placeless_eq_of_id (same : left.placeless id = right.placeless id) :
    left.placeless read = right.placeless read := by
  induction left using childInduction generalizing right with
  | step left inductionHypothesis =>
      obtain ⟨sameKind, sameAttributes, each⟩ := placeless_eq_iff.mp same
      refine placeless_eq_iff.mpr ⟨sameKind, fun name => ?_, ?_⟩
      · have here := sameAttributes name
        rw [Option.map_id] at here
        exact congrArg (Option.map read) here
      · exact Outcome.forall₂_imp_mem each fun child member _ _ => inductionHypothesis child member

/-! ## Pairs on a stack -/

/-- Two nodes have the same kind, equally many children and the same attributes. -/
def agrees (left right : Node) : Bool :=
  left.kind == right.kind && left.children.length == right.children.length &&
    left.attributes.same right.attributes

theorem sum_zip_le (lefts rights : List Node) :
    ((lefts.zip rights).map fun pair => pair.1.preorder.length).sum ≤
      (lefts.map fun n => n.preorder.length).sum := by
  induction lefts generalizing rights with
  | nil => simp
  | cons left rest inductionHypothesis =>
      cases rights with
      | nil => simp
      | cons right others => simpa using inductionHypothesis others

/-- Every pair of nodes on the stack agrees, and so do all pairs of children that
are put on it. The first pair that does not agree ends the comparison. -/
def agreeThroughout : List (Node × Node) → Bool
  | [] => true
  | (left, right) :: rest =>
    left.agrees right && agreeThroughout ((left.children.zip right.children).reverse ++ rest)
termination_by pairs => (pairs.map fun pair => pair.1.preorder.length).sum
decreasing_by
  have children := sum_zip_le left.children right.children
  simp only [List.map_append, List.map_reverse, List.sum_append, List.sum_reverse, List.map_cons,
    List.sum_cons]
  rw [preorder_eq left, List.length_cons, List.length_flatMap]
  omega

theorem structurallyEqual_eq_agrees (left right : Node) : left.structurallyEqual right =
    (left.agrees right &&
      (left.children.zip right.children).all fun pair => pair.1.structurallyEqual pair.2) := by
  rw [Bool.eq_iff_iff, structurallyEqual_iff, List.forall₂_iff_zip]
  simp only [agrees, Bool.and_eq_true, beq_iff_eq, List.all_eq_true, Prod.forall]
  tauto

theorem agreeThroughout_eq_all (pairs : List (Node × Node)) :
    agreeThroughout pairs = pairs.all fun pair => pair.1.structurallyEqual pair.2 := by
  induction pairs using agreeThroughout.induct with
  | case1 => rw [agreeThroughout, List.all_nil]
  | case2 left right rest inductionHypothesis =>
      rw [agreeThroughout, inductionHypothesis, List.all_append, List.all_reverse, List.all_cons,
        structurallyEqual_eq_agrees, Bool.and_assoc]

/-! ## Equality up to places -/

/-- Normalized trees are structurally equal when they are the same up to their places
and to how numbers are written. So the same trees at other places are structurally
equal, and structurally equal trees that are not the same write a number in two ways
at some place. Comparing the pairs of nodes with a stack gives the same answer. -/
theorem structurallyEqual_upToWriting {raw otherRaw : Value} {file otherFile : Option String}
    {left right : Node} (once : raw.KeysOnce) (otherOnce : otherRaw.KeysOnce)
    (accepted : Node.normalize raw file = .ok left)
    (otherAccepted : Node.normalize otherRaw otherFile = .ok right) :
    (left.structurallyEqual right = true ↔
      left.placeless Attribute.worth = right.placeless Attribute.worth) ∧
    (left.placeless id = right.placeless id → left.structurallyEqual right = true) ∧
    (left.structurallyEqual right = true →
      (left.placeless id ≠ right.placeless id ↔ left.Respells right)) ∧
    agreeThroughout [(left, right)] = left.structurallyEqual right := by
  have equalIff := structurallyEqual_iff_placeless (namesOnce_of_normalize once accepted)
    (namesOnce_of_normalize otherOnce otherAccepted)
  refine ⟨equalIff, ?_, ?_, ?_⟩
  · intro same
    exact equalIff.mpr (placeless_eq_of_id same)
  · intro equal
    exact ⟨respells_of_placeless_ne (equalIff.mp equal), Respells.placeless_ne⟩
  · rw [agreeThroughout_eq_all, List.all_cons, List.all_nil, Bool.and_true]

/-- The dump of a literal at a line. -/
def literalDump (line : Int) (value : Value) : Value :=
  .table [("kind", .text "literal"), ("line", .int line), ("attributes", .table [("value", value)])]

theorem keysOnce_literalDump (line : Int) (literal : Literal) :
    (literalDump line literal.toValue).KeysOnce := by
  refine .table (by simp) ?_
  have attributes : (Value.table [("value", literal.toValue)]).KeysOnce := by
    refine .table (by simp) ?_
    simpa using Value.KeysOnce.plain
  simp only [List.mem_cons, List.not_mem_nil, or_false, forall_eq_or_imp, forall_eq]
  exact ⟨@Value.KeysOnce.plain (.text "literal"), @Value.KeysOnce.plain (.int line), attributes⟩

/-- The number one at two places. -/
theorem structurallyEqual_upToWriting_moved :
    ∃ left right, Node.normalize (literalDump 2 (.int 1)) (some "lib/a.ex") = .ok left ∧
      Node.normalize (literalDump 5 (.int 1)) (some "lib/b.ex") = .ok right ∧
      left ≠ right ∧ left.placeless id = right.placeless id ∧ left.structurallyEqual right = true ∧
      agreeThroughout [(left, right)] = true := by
  have accepted : Node.normalize (literalDump 2 (.int 1)) (some "lib/a.ex") = .ok _ := rfl
  have otherAccepted : Node.normalize (literalDump 5 (.int 1)) (some "lib/b.ex") = .ok _ := rfl
  have facts := structurallyEqual_upToWriting (keysOnce_literalDump 2 (.int 1))
    (keysOnce_literalDump 5 (.int 1)) accepted otherAccepted
  have equal := facts.2.1 rfl
  exact ⟨_, _, accepted, otherAccepted, by simp, rfl, equal, facts.2.2.2.trans equal⟩

/-- True and the number one are structurally equal and not the same. -/
theorem structurallyEqual_of_other_literal :
    ∃ left right, Node.normalize (literalDump 2 (.bool true)) (some "lib/a.ex") = .ok left ∧
      Node.normalize (literalDump 2 (.int 1)) (some "lib/a.ex") = .ok right ∧
      left.structurallyEqual right = true ∧ left.placeless id ≠ right.placeless id := by
  refine ⟨_, _, rfl, rfl, by decide, ?_⟩
  intro same
  have values := (placeless_eq_iff.mp same).2.1 "value"
  simp at values

end Node
end StyleAudit
