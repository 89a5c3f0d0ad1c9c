import Mathlib.Data.List.Nodup
import StyleAudit.Expression.Call
import StyleAudit.Proofs.Tree.Position

/-!
# Call sites

The calls of a tree are those at the paths that lead into no module, in the
order of the paths (`Node.callsBelow_eq_filterMap`). A call takes as many
arguments as it has children, and one more when a pipe feeds it
(`Node.callAt?_eq_some_iff`). `Node.IsOwnCall` are the calls of a module outside
of nested modules.
-/

namespace StyleAudit.Node

variable {n m form child call : Node} {path way : NodePath} {position arity : Nat} {piped : Bool}

/-! ## Paths -/

theorem at?_append (n : Node) (path way : NodePath) :
    n.at? (path ++ way) = (n.at? path).bind (·.at? way) := by
  induction path generalizing n with
  | nil => rfl
  | cons position rest inductionHypothesis =>
      rw [List.cons_append, at?, at?]
      cases n.children[position]? with
      | none => rfl
      | some child => exact inductionHypothesis child

/-- A child stands in the modules that its parent stands in, and in itself. -/
theorem enclosing_concat (reached : n.at? path = some m)
    (found : m.children[position]? = some child) :
    n.enclosing (path ++ [position]) =
      (n.enclosing path).map (fun place => (place.1, place.2 ++ [position])) ++
        child.asModule [] := by
  have further : ∀ (outer : Node) (way : NodePath), outer.asModule (way ++ [position]) =
      (outer.asModule way).map fun place => (place.1, place.2 ++ [position]) := by
    intro outer way
    rw [asModule, asModule]
    split <;> rfl
  induction path generalizing n with
  | nil =>
      cases Option.some.inj reached
      rw [List.nil_append, enclosing_cons found, enclosing, enclosing, ← further m []]
      rfl
  | cons first rest inductionHypothesis =>
      obtain ⟨next, nextFound, below⟩ := at?_cons_eq_some_iff.mp reached
      rw [List.cons_append, enclosing_cons nextFound, enclosing_cons nextFound,
        inductionHypothesis below, List.map_append, ← further _ (first :: rest),
        List.append_assoc]
      rfl

/-- No position of a tree is listed twice. -/
theorem nodup_positions (n : Node) : n.positions.Nodup := by
  induction n using childInduction with
  | step n inductionHypothesis =>
      rw [positions_eq, List.nodup_cons, List.nodup_flatMap]
      refine ⟨?_, ?_, ?_⟩
      · intro impossible
        obtain ⟨indexed, _, inside⟩ := List.mem_flatMap.mp impossible
        obtain ⟨_, _, same⟩ := mem_positionsOf_iff.mp inside
        cases same
      · rintro ⟨child, position⟩ listed
        have found := List.mem_zipIdx_iff_getElem?.mp listed
        have single := inductionHypothesis child (List.mem_of_getElem? found)
        exact single.map List.cons_injective
      · have indices : (n.children.zipIdx.map Prod.snd).Pairwise (· ≠ ·) := by
          rw [List.zipIdx_map_snd]
          exact List.nodup_range'
        refine (List.pairwise_map.mp indices).imp ?_
        intro indexed other apart path inside otherInside
        obtain ⟨_, _, rfl⟩ := mem_positionsOf_iff.mp inside
        obtain ⟨_, _, same⟩ := mem_positionsOf_iff.mp otherInside
        exact apart (List.cons.inj same).1

/-! ## Pipes -/

/-- A pipe feeds its second child. -/
def feeds (n : Node) (position : Nat) : Bool :=
  n.kind == .pipe && position == 1

/-- The last step of a path leads from a pipe to the child that it feeds. -/
def isFed (n : Node) (path : NodePath) : Bool :=
  path.getLast? == some 1 && (n.at? path.dropLast).any (·.kind == .pipe)

/-- The number of arguments of the call at a path: one for each child, and one
more when a pipe feeds the call. -/
def arityAt (n : Node) (path : NodePath) (call : Node) : Nat :=
  call.children.length + if n.isFed path then 1 else 0

theorem isFed_singleton (n : Node) (position : Nat) : n.isFed [position] = n.feeds position := by
  simp [isFed, feeds, Bool.and_comm]

theorem isFed_cons_cons (found : n.children[position]? = some child) (next : Nat) :
    n.isFed (position :: next :: way) = child.isFed (next :: way) := by
  rw [isFed, isFed, List.dropLast_cons_cons, at?_cons found, List.getLast?_cons_cons]

theorem isFed_concat (reached : n.at? path = some m) (position : Nat) :
    n.isFed (path ++ [position]) = m.feeds position := by
  simp [isFed, feeds, reached, Bool.and_comm]

/-! ## Calls by their paths -/

/-- The call at a path that leads into no module, with the number of arguments
that it takes when the root is fed by a pipe or not. -/
def callAt? : Bool → Node → NodePath → Option (Node × Nat)
  | piped, n, [] =>
    if n.kind = .call then some (n, n.children.length + if piped then 1 else 0) else none
  | _, n, position :: way =>
    if n.kind = .module then none
    else n.children[position]?.bind fun child => callAt? (n.feeds position) child way

theorem callAt?_cons (noModule : n.kind ≠ .module) (found : n.children[position]? = some child) :
    callAt? piped n (position :: way) = callAt? (n.feeds position) child way := by
  rw [callAt?, if_neg noModule, found, Option.bind_some]

/-- Siblings from a position on of which no pipe feeds any. -/
theorem callsAll_eq_flatMap (start : Nat)
    (unfed : ∀ later, start ≤ later → n.feeds later = false) (ns : List Node) :
    callsAll ns = (ns.zipIdx start).flatMap fun indexed =>
      indexed.1.callsBelow (n.feeds indexed.2) := by
  induction ns generalizing start with
  | nil => rfl
  | cons first rest inductionHypothesis =>
      rw [callsAll, List.zipIdx_cons, List.flatMap_cons, unfed start (Nat.le_refl start),
        inductionHypothesis (start + 1) fun later after => unfed later (Nat.le_of_succ_le after)]

/-- The calls at and below a node are the node itself, if it is a call, and
those of its children. -/
theorem callsBelow_eq (piped : Bool) (n : Node) :
    n.callsBelow piped = (callAt? piped n []).toList ++
      if n.kind = .module then []
      else n.children.zipIdx.flatMap fun indexed => indexed.1.callsBelow (n.feeds indexed.2) := by
  obtain ⟨kind, span, attributes, children⟩ := n
  have among : kind ≠ .pipe → callsAll children = children.zipIdx.flatMap fun indexed =>
      indexed.1.callsBelow (feeds ⟨kind, span, attributes, children⟩ indexed.2) := by
    intro noPipe
    exact callsAll_eq_flatMap 0 (fun later _ => by simp [feeds, noPipe]) children
  cases kind with
  | module => rfl
  | pipe =>
      match children with
      | [] => rfl
      | [input] => exact (List.append_nil _).symm
      | input :: fed :: rest =>
          have others := callsAll_eq_flatMap (n := ⟨.pipe, span, attributes, input :: fed :: rest⟩)
            2 (fun later after => by simp [feeds, Nat.ne_of_gt after]) rest
          have below : callsBelow piped ⟨.pipe, span, attributes, input :: fed :: rest⟩ =
              callsBelow false input ++ callsBelow true fed ++ callsAll rest := rfl
          rw [below, others, List.append_assoc]
          rfl
  | call =>
      have below : callsBelow piped ⟨.call, span, attributes, children⟩ =
          (⟨.call, span, attributes, children⟩, children.length + if piped then 1 else 0)
            :: callsAll children := rfl
      rw [below, among (by decide)]
      rfl
  | _ => exact among (by decide)

/-- The calls of a tree stand at the paths that lead into no module. -/
theorem callsBelow_eq_filterMap (piped : Bool) (n : Node) :
    n.callsBelow piped = n.positions.filterMap (callAt? piped n) := by
  induction n using childInduction generalizing piped with
  | step n inductionHypothesis =>
      have fromChildren : (n.children.zipIdx.flatMap positionsOf).filterMap (callAt? piped n) =
          if n.kind = .module then []
          else n.children.zipIdx.flatMap fun indexed =>
            indexed.1.callsBelow (n.feeds indexed.2) := by
        rw [List.filterMap_flatMap]
        split
        · rename_i isModule
          rw [List.flatMap_eq_nil_iff]
          rintro ⟨child, position⟩ _
          simp [positionsOf, List.filterMap_map, Function.comp_def, callAt?, isModule]
        · rename_i noModule
          refine List.flatMap_congr ?_
          rintro ⟨child, position⟩ listed
          have found := List.mem_zipIdx_iff_getElem?.mp listed
          rw [inductionHypothesis child (List.mem_of_getElem? found), positionsOf,
            List.filterMap_map]
          exact List.filterMap_congr fun way _ => callAt?_cons noModule found
      rw [callsBelow_eq, ← fromChildren, positions_eq, List.filterMap_cons]
      cases callAt? piped n [] <;> rfl

/-- The call at a path: it is reached through no module. -/
theorem callAt?_eq_some_iff :
    callAt? piped n path = some (call, arity) ↔
      n.at? path = some call ∧ call.kind = .call ∧ n.enclosing path = [] ∧
        arity = call.children.length +
          if (if path = [] then piped else n.isFed path) then 1 else 0 := by
  induction path generalizing n piped with
  | nil =>
      rw [callAt?, at?_nil, enclosing, asModule, if_pos (c := ([] : NodePath) = []) rfl]
      by_cases isCall : n.kind = .call
      · have noModule : n.kind ≠ .module := by
          rw [isCall]
          decide
        rw [if_pos isCall, if_neg noModule]
        constructor
        · intro same
          cases same
          exact ⟨rfl, isCall, rfl, rfl⟩
        · rintro ⟨same, _, _, rfl⟩
          cases same
          rfl
      · rw [if_neg isCall]
        constructor
        · intro impossible
          cases impossible
        · rintro ⟨same, found, _⟩
          cases same
          exact absurd found isCall
  | cons position way inductionHypothesis =>
      by_cases isModule : n.kind = .module
      · rw [callAt?, if_pos isModule, enclosing, asModule, if_pos isModule]
        simp
      · cases found : n.children[position]? with
        | none =>
            rw [callAt?, if_neg isModule, at?, found]
            simp
        | some child =>
            have fed : n.isFed (position :: way) =
                if way = [] then n.feeds position else child.isFed way := by
              cases way with
              | nil => exact isFed_singleton n position
              | cons next rest => exact isFed_cons_cons found next
            rw [callAt?_cons isModule found, inductionHypothesis, at?_cons found,
              enclosing_cons found, asModule, if_neg isModule, List.nil_append,
              if_neg (List.cons_ne_nil position way), fed]

/-! ## Calls of a module -/

/-- A node of the module itself: it stands in no nested module. -/
structure IsOwn (m : Node) (path : NodePath) (n : Node) : Prop where
  reached : m.at? path = some n
  own : m.enclosing path = [(m, path)]

/-- A call of the module itself. -/
structure IsOwnCall (m : Node) (path : NodePath) (call : Node) : Prop
    extends m.IsOwn path call where
  isCall : call.kind = .call

theorem IsOwn.to_child (own : m.IsOwn path n) (found : n.children[position]? = some child)
    (noModule : child.kind ≠ .module) : m.IsOwn (path ++ [position]) child := by
  refine ⟨?_, ?_⟩
  · rw [at?_append, own.reached, Option.bind_some, at?_cons found, at?_nil]
  · rw [enclosing_concat own.reached found, own.own, asModule, if_neg noModule]
    rfl

/-- The calls of a module are those of its forms. -/
theorem callAt?_form_eq_some_iff (isModule : m.kind = .module)
    (found : m.children[position]? = some form) :
    callAt? false form way = some (call, arity) ↔
      m.IsOwnCall (position :: way) call ∧ arity = m.arityAt (position :: way) call := by
  have inside : m.enclosing (position :: way) = [(m, position :: way)] ↔
      form.enclosing way = [] := by
    rw [enclosing_cons found, asModule, if_pos isModule, List.singleton_append]
    simp
  have fed : m.isFed (position :: way) = if way = [] then false else form.isFed way := by
    cases way with
    | nil => simp [isFed_singleton, feeds, isModule]
    | cons next rest => exact isFed_cons_cons found next
  rw [callAt?_eq_some_iff, arityAt, fed]
  constructor
  · rintro ⟨reached, isCall, outside, counted⟩
    exact ⟨⟨⟨(at?_cons found).trans reached, inside.mpr outside⟩, isCall⟩, counted⟩
  · rintro ⟨⟨⟨reached, own⟩, isCall⟩, counted⟩
    exact ⟨(at?_cons found).symm.trans reached, isCall, inside.mp own, counted⟩

/-- The path to a call of the module leads through one of its forms. -/
theorem IsOwnCall.exists_form (own : m.IsOwnCall path call) (isModule : m.kind = .module) :
    ∃ position way form, path = position :: way ∧ m.children[position]? = some form ∧
      form.kind ≠ .module := by
  cases path with
  | nil =>
      have same := own.reached
      rw [at?_nil] at same
      cases same
      rw [own.isCall] at isModule
      cases isModule
  | cons position way =>
      obtain ⟨form, found, _⟩ := at?_cons_eq_some_iff.mp own.reached
      refine ⟨position, way, form, rfl, found, ?_⟩
      intro nested
      have enclosed := own.own
      rw [enclosing_cons found, asModule, if_pos isModule, List.singleton_append] at enclosed
      have inForm : form.enclosing way ≠ [] := by
        cases way <;> simp [enclosing, asModule, nested]
      exact inForm (List.cons.inj enclosed).2

end StyleAudit.Node
