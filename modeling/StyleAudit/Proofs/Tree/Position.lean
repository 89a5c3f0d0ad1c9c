import Mathlib.Data.List.Basic
import StyleAudit.Proofs.Tree.Preorder
import StyleAudit.Tree.Normalize

/-!
# Paths in a tree

`Node.at?` goes down a path, and `Node.positions` lists the paths of all nodes
of a tree in the order of `Node.preorder`. `Node.enclosing` are the modules
that the node at a path stands in. The paths of a subtree are a block among
those of the tree, and all other paths stay as they are when `Node.replaceAt`
puts another subtree there (`exists_positions_replaceAt`).
-/

namespace StyleAudit.Node

variable {n m child : Node} {path way : NodePath} {position : Nat}

/-- The node at a path, if the path stays in the tree. -/
def at? : Node → NodePath → Option Node
  | n, [] => some n
  | n, position :: way => n.children[position]?.bind fun child => child.at? way

@[simp]
theorem at?_nil (n : Node) : n.at? [] = some n :=
  rfl

theorem at?_cons (found : n.children[position]? = some child) :
    n.at? (position :: way) = child.at? way := by
  rw [at?, found, Option.bind_some]

theorem at?_cons_eq_some_iff :
    n.at? (position :: way) = some m ↔
      ∃ child, n.children[position]? = some child ∧ child.at? way = some m := by
  rw [at?, Option.bind_eq_some_iff]

mutual

/-- The paths of all nodes of a tree, parents before children. -/
def positions : Node → List NodePath
  | ⟨_, _, _, children⟩ => [] :: positionsAmong 0 children
  termination_by structural n => n

/-- The paths of all nodes of siblings, the first at the given position. -/
def positionsAmong (position : Nat) : List Node → List NodePath
  | [] => []
  | n :: rest => n.positions.map (position :: ·) ++ positionsAmong (position + 1) rest
  termination_by structural ns => ns

end

/-- The paths of a sibling at a position. -/
def positionsOf (indexed : Node × Nat) : List NodePath :=
  indexed.1.positions.map (indexed.2 :: ·)

theorem positionsAmong_eq_flatMap (position : Nat) (ns : List Node) :
    positionsAmong position ns = (ns.zipIdx position).flatMap positionsOf := by
  induction ns generalizing position with
  | nil => rfl
  | cons n rest inductionHypothesis =>
      rw [positionsAmong, inductionHypothesis, List.zipIdx_cons, List.flatMap_cons, positionsOf]

theorem positions_eq (n : Node) :
    n.positions = [] :: n.children.zipIdx.flatMap positionsOf := by
  obtain ⟨kind, span, attributes, children⟩ := n
  rw [positions, positionsAmong_eq_flatMap]

/-- The paths lead to the nodes of the tree in their order. -/
theorem positions_map_at? (n : Node) :
    n.positions.map n.at? = n.preorder.map some := by
  induction n using childInduction with
  | step n inductionHypothesis =>
      have below : ∀ indexed ∈ n.children.zipIdx,
          (positionsOf indexed).map n.at? = indexed.1.preorder.map some := by
        rintro ⟨child, position⟩ member
        have found : n.children[position]? = some child :=
          List.mem_zipIdx_iff_getElem?.mp member
        have toChild : n.at? ∘ (position :: ·) = child.at? :=
          funext fun way => at?_cons found
        rw [positionsOf, List.map_map, toChild]
        exact inductionHypothesis child (List.mem_of_getElem? found)
      have unindexed : n.children.flatMap preorder =
          n.children.zipIdx.flatMap fun indexed => indexed.1.preorder := by
        rw [← List.zipIdx_map_fst 0 n.children, List.flatMap_map]
        simp
      rw [positions_eq, preorder_eq, List.map_cons, List.map_cons, at?_nil, List.map_flatMap,
        unindexed, List.map_flatMap]
      exact congrArg _ (List.flatMap_congr below)

theorem mem_positionsOf_iff {indexed : Node × Nat} :
    path ∈ positionsOf indexed ↔ ∃ way ∈ indexed.1.positions, path = indexed.2 :: way := by
  rw [positionsOf, List.mem_map]
  simp only [eq_comm]

/-- The positions of a tree are the paths that lead to a node. -/
theorem mem_positions_iff : path ∈ n.positions ↔ ∃ m, n.at? path = some m := by
  induction path generalizing n with
  | nil => simp [positions_eq]
  | cons position way inductionHypothesis =>
      simp only [positions_eq, at?_cons_eq_some_iff]
      constructor
      · intro member
        rcases List.mem_cons.mp member with impossible | below
        · cases impossible
        · obtain ⟨indexed, listed, inside⟩ := List.mem_flatMap.mp below
          obtain ⟨_, later, same⟩ := mem_positionsOf_iff.mp inside
          cases same
          obtain ⟨m, reached⟩ := inductionHypothesis.mp later
          exact ⟨m, indexed.1, List.mem_zipIdx_iff_getElem?.mp listed, reached⟩
      · intro found
        rcases found with ⟨m, child, childFound, reached⟩
        have listed : (child, position) ∈ n.children.zipIdx :=
          List.mem_zipIdx_iff_getElem?.mpr childFound
        have inside : position :: way ∈ positionsOf (child, position) :=
          mem_positionsOf_iff.mpr ⟨way, inductionHypothesis.mpr ⟨m, reached⟩, rfl⟩
        exact List.mem_cons_of_mem _ (List.mem_flatMap_of_mem listed inside)

theorem mem_preorder_of_at? (reached : n.at? path = some m) : m ∈ n.preorder := by
  have place := List.mem_map_of_mem (f := n.at?) (mem_positions_iff.mpr ⟨m, reached⟩)
  rw [positions_map_at?, reached] at place
  obtain ⟨k, member, same⟩ := List.mem_map.mp place
  cases same
  exact member

/-! ## Replacing a subtree -/

/-- The tree with another node at a path. -/
def replaceAt : Node → NodePath → Node → Node
  | _, [], replacement => replacement
  | n, position :: way, replacement =>
    { n with
      children := n.children.modify position fun child => child.replaceAt way replacement }

/-- Replacing a node by itself changes nothing. -/
theorem replaceAt_self (found : n.at? path = some m) : n.replaceAt path m = n := by
  induction path generalizing n with
  | nil => exact (Option.some.inj found).symm
  | cons position way inductionHypothesis =>
      obtain ⟨child, childFound, reached⟩ := at?_cons_eq_some_iff.mp found
      have unchanged : n.children.modify position (fun other => other.replaceAt way m) =
          n.children := by
        apply List.ext_getElem?
        intro other
        rw [List.getElem?_modify]
        by_cases here : position = other
        · subst here
          rw [childFound]
          simp [inductionHypothesis reached]
        · simp [here]
      obtain ⟨kind, span, attributes, children⟩ := n
      rw [replaceAt, unchanged]

/-- The paths of a subtree are a block, and no other path leads into the
subtree, whatever stands there. -/
theorem exists_positions_replaceAt (found : n.at? path = some m) :
    ∃ before after, (∀ other ∈ before ++ after, ¬ path <+: other) ∧
      ∀ replacement, (n.replaceAt path replacement).positions =
        before ++ replacement.positions.map (path ++ ·) ++ after := by
  induction path generalizing n with
  | nil => exact ⟨[], [], by simp, fun replacement => by simp [replaceAt]⟩
  | cons position way inductionHypothesis =>
      obtain ⟨child, childFound, reached⟩ := at?_cons_eq_some_iff.mp found
      obtain ⟨before, after, apart, split⟩ := inductionHypothesis reached
      obtain ⟨inRange, rfl⟩ := List.getElem?_eq_some_iff.mp childFound
      have earlierLength : (n.children.take position).length = position :=
        List.length_take_of_le (Nat.le_of_lt inRange)
      refine ⟨[] :: (n.children.take position).zipIdx.flatMap positionsOf ++
          before.map (position :: ·),
        after.map (position :: ·) ++
          ((n.children.drop (position + 1)).zipIdx (position + 1)).flatMap positionsOf, ?_, ?_⟩
      · intro other member inside
        obtain ⟨rest, rfl⟩ := inside
        simp only [List.cons_append, List.mem_append, List.mem_cons, reduceCtorEq, false_or,
          List.mem_flatMap, mem_positionsOf_iff, List.mem_map, List.cons.injEq] at member
        rcases member with (⟨indexed, listed, _, _, here, _⟩ | ⟨other, listed, _, rfl⟩) |
          (⟨other, listed, _, rfl⟩ | ⟨indexed, listed, _, _, here, _⟩)
        · have bound := List.snd_lt_of_mem_zipIdx listed
          omega
        · exact apart _ (List.mem_append_left _ listed) (List.prefix_append _ _)
        · exact apart _ (List.mem_append_right _ listed) (List.prefix_append _ _)
        · have bound := List.le_snd_of_mem_zipIdx listed
          omega
      · intro replacement
        rw [replaceAt, positions_eq, List.modify_eq_take_cons_drop inRange, List.zipIdx_append,
          earlierLength, List.zipIdx_cons, List.flatMap_append, List.flatMap_cons, positionsOf,
          split]
        simp [List.map_map, Function.comp_def]

/-! ## Enclosing modules -/

/-- The node and the way that remains from it, if it is a module. -/
def asModule (n : Node) (way : NodePath) : List (Node × NodePath) :=
  if n.kind = .module then [(n, way)] else []

theorem mem_asModule_iff :
    (m, way) ∈ n.asModule path ↔ m.kind = .module ∧ m = n ∧ way = path := by
  rw [asModule]
  split
  · rename_i isModule
    rw [List.mem_singleton, Prod.mk.injEq]
    constructor
    · rintro ⟨rfl, rfl⟩
      exact ⟨isModule, rfl, rfl⟩
    · intro same
      exact same.2
  · rename_i noModule
    constructor
    · intro impossible
      cases impossible
    · rintro ⟨isModule, rfl, _⟩
      exact absurd isModule noModule

/-- The modules that the node at a path stands in, itself included, the
outermost first, each with the way from it to the node. -/
def enclosing : Node → NodePath → List (Node × NodePath)
  | n, [] => n.asModule []
  | n, position :: way =>
    n.asModule (position :: way) ++
      n.children[position]?.elim [] fun child => child.enclosing way

theorem enclosing_cons (found : n.children[position]? = some child) :
    n.enclosing (position :: way) = n.asModule (position :: way) ++ child.enclosing way := by
  rw [enclosing, found, Option.elim_some]

/-- The modules around a position are those on the way to it, each with the rest of
the way. -/
theorem mem_enclosing_iff :
    (m, way) ∈ n.enclosing path ↔
      m.kind = .module ∧ ∃ before, path = before ++ way ∧ n.at? before = some m := by
  induction path generalizing n with
  | nil =>
      rw [enclosing, mem_asModule_iff]
      constructor
      · rintro ⟨isModule, rfl, rfl⟩
        exact ⟨isModule, [], rfl, rfl⟩
      · rintro ⟨isModule, before, split, reached⟩
        obtain ⟨rfl, rfl⟩ := List.append_eq_nil_iff.mp split.symm
        exact ⟨isModule, (Option.some.inj reached).symm, rfl⟩
  | cons position rest inductionHypothesis =>
      rw [enclosing, List.mem_append, mem_asModule_iff]
      constructor
      · rintro (⟨isModule, rfl, rfl⟩ | below)
        · exact ⟨isModule, [], rfl, rfl⟩
        · cases childFound : n.children[position]? with
          | none =>
              rw [childFound] at below
              cases below
          | some child =>
              rw [childFound] at below
              obtain ⟨isModule, before, rfl, reached⟩ := inductionHypothesis.mp below
              exact ⟨isModule, position :: before, rfl,
                at?_cons_eq_some_iff.mpr ⟨child, childFound, reached⟩⟩
      · rintro ⟨isModule, before, split, reached⟩
        cases before with
        | nil => exact Or.inl ⟨isModule, (Option.some.inj reached).symm, split.symm⟩
        | cons first before =>
            obtain ⟨rfl, rfl⟩ := List.cons.inj split
            obtain ⟨child, childFound, below⟩ := at?_cons_eq_some_iff.mp reached
            right
            rw [childFound]
            exact inductionHypothesis.mpr ⟨isModule, before, rfl, below⟩

end StyleAudit.Node
