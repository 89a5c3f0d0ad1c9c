import Mathlib.Data.List.Perm.Basic
import StyleAudit.Proofs.Expression.CallSite
import StyleAudit.Proofs.Expression.Reading
import StyleAudit.Rule.CallOrigin

/-!
# Trees without pipes

A pipe feeds its input to a call. `Node.unpiped` writes every pipe as the call
that it stands for, with the input as the first argument, and keeps all other
nodes. The calls of a tree are then the same ones up to their order and their
arguments (`callsBelow_unpiped`), and an expression makes the same call
(`callTarget?_unpiped`).
-/

namespace StyleAudit.Node

variable {n input call child : Node} {kind : Kind}

/-- A pipe as the call that it stands for. -/
def asCall (n : Node) : Node :=
  match n.kind, n.children with
  | .pipe, [input, call] => { call with children := input :: call.children }
  | _, _ => n

mutual

/-- The tree with every pipe written as a call. -/
def unpiped : Node → Node
  | ⟨kind, span, attributes, children⟩ =>
    asCall ⟨kind, span, attributes, unpipedAll children⟩
  termination_by structural n => n

/-- Several trees with every pipe written as a call. -/
def unpipedAll : List Node → List Node
  | [] => []
  | n :: rest => unpiped n :: unpipedAll rest
  termination_by structural ns => ns

end

/-- Every pipe of the tree has an input and a call, and nothing else. -/
def HasPlainPipes (n : Node) : Prop :=
  ∀ pipe ∈ n.preorder, pipe.kind = .pipe →
    ∃ input call, pipe.children = [input, call] ∧ call.kind = .call

theorem HasPlainPipes.of_mem {m : Node} (plain : n.HasPlainPipes) (member : m ∈ n.preorder) :
    m.HasPlainPipes :=
  fun pipe below => plain pipe (mem_preorder_trans below member)

theorem HasPlainPipes.of_child (plain : n.HasPlainPipes) (member : child ∈ n.children) :
    child.HasPlainPipes :=
  plain.of_mem (mem_preorder_of_mem_children member)

/-- In a tree of the right shape a pipe has a call if it has two children. -/
theorem hasPlainPipes_of_isWellShaped (shaped : n.IsWellShaped)
    (binary : ∀ pipe ∈ n.preorder, pipe.kind = .pipe → pipe.children.length = 2) :
    n.HasPlainPipes := by
  intro pipe member isPipe
  obtain ⟨input, call, children⟩ := List.length_eq_two.mp (binary pipe member isPipe)
  have isCall := (shaped.of_mem member).second_kind (by rw [isPipe]; rfl) children
  exact ⟨input, call, children, isCall⟩

/-! ## Nodes -/

theorem unpipedAll_eq_map (ns : List Node) : unpipedAll ns = ns.map unpiped := by
  induction ns with
  | nil => rfl
  | cons n rest inductionHypothesis =>
      rw [unpipedAll, inductionHypothesis, List.map_cons]

theorem unpiped_eq (n : Node) :
    n.unpiped = asCall { n with children := n.children.map unpiped } := by
  obtain ⟨kind, span, attributes, children⟩ := n
  rw [unpiped, unpipedAll_eq_map]

theorem unpiped_of_not_pipe (noPipe : n.kind ≠ .pipe) :
    n.unpiped = { n with children := n.children.map unpiped } := by
  rw [unpiped_eq, asCall.eq_def]
  split
  · rename_i isPipe _
    exact absurd isPipe noPipe
  · rfl

theorem unpiped_of_pipe (isPipe : n.kind = .pipe) (children : n.children = [input, call])
    (isCall : call.kind = .call) :
    n.unpiped = { call with children := input.unpiped :: call.children.map unpiped } := by
  have callUnpiped := unpiped_of_not_pipe (n := call) (by rw [isCall]; decide)
  rw [unpiped_eq, asCall.eq_def, isPipe, children]
  simp only [List.map_cons, List.map_nil, callUnpiped]

/-- What holds of pipes when it holds of the input and of the arguments, and of
other nodes when it holds of the children, holds of every tree. -/
theorem HasPlainPipes.induction {motive : (n : Node) → n.HasPlainPipes → Prop}
    (other : ∀ (n : Node) (plain : n.HasPlainPipes), n.kind ≠ .pipe →
      (∀ child (member : child ∈ n.children), motive child (plain.of_child member)) →
        motive n plain)
    (pipe : ∀ (n input call : Node) (plain : n.HasPlainPipes) (inputPlain : input.HasPlainPipes)
      (callPlain : call.HasPlainPipes), n.kind = .pipe → n.children = [input, call] →
        call.kind = .call → motive input inputPlain →
        (∀ argument (member : argument ∈ call.children),
          motive argument (callPlain.of_child member)) → motive n plain)
    (n : Node) (plain : n.HasPlainPipes) : motive n plain := by
  -- The arguments of a piped call lie two levels below the pipe.
  induction n using descendantInduction with
  | step n inductionHypothesis =>
      have below : ∀ child ∈ n.children, ∀ m ∈ child.preorder, ∀ plain, motive m plain :=
        fun child member m inside plain => inductionHypothesis child member m inside plain
      by_cases isPipe : n.kind = .pipe
      · obtain ⟨input, call, children, isCall⟩ := plain n (mem_preorder_self n) isPipe
        have inputMember : input ∈ n.children := by simp [children]
        have callMember : call ∈ n.children := by simp [children]
        refine pipe n input call plain (plain.of_child inputMember) (plain.of_child callMember)
          isPipe children isCall ?_ ?_
        · exact below input inputMember input (mem_preorder_self input) _
        · intro argument member
          exact below call callMember argument (mem_preorder_of_mem_children member) _
      · refine other n plain isPipe ?_
        intro child member
        exact below child member child (mem_preorder_self child) _

/-- Only pipes get another kind, that of calls. -/
theorem kind_unpiped (plain : n.HasPlainPipes) :
    n.unpiped.kind = if n.kind = .pipe then .call else n.kind := by
  by_cases isPipe : n.kind = .pipe
  · obtain ⟨input, call, children, isCall⟩ := plain n (mem_preorder_self n) isPipe
    rw [unpiped_of_pipe isPipe children isCall, if_pos isPipe]
    exact isCall
  · rw [unpiped_of_not_pipe isPipe, if_neg isPipe]

/-- Kinds other than those of pipes and calls can be told as before. -/
theorem kind_unpiped_eq_iff (plain : n.HasPlainPipes) (noPipe : kind ≠ .pipe)
    (noCall : kind ≠ .call) : n.unpiped.kind = kind ↔ n.kind = kind := by
  rw [kind_unpiped plain]
  split
  · rename_i isPipe
    rw [isPipe]
    exact iff_of_false (Ne.symm noCall) (Ne.symm noPipe)
  · exact Iff.rfl

theorem beq_kind_unpiped (plain : n.HasPlainPipes) (noPipe : kind ≠ .pipe)
    (noCall : kind ≠ .call) : (n.unpiped.kind == kind) = (n.kind == kind) := by
  rw [Bool.eq_iff_iff, beq_iff_eq, beq_iff_eq, kind_unpiped_eq_iff plain noPipe noCall]

/-- The nodes of a kind, other than pipes and calls, stand in the same order. -/
theorem filter_preorder_unpiped (plain : n.HasPlainPipes) (noPipe : kind ≠ .pipe)
    (noCall : kind ≠ .call) :
    n.unpiped.preorder.filter (·.kind == kind) =
      (n.preorder.filter (·.kind == kind)).map unpiped := by
  have among : ∀ ns : List Node,
      (∀ child ∈ ns, child.unpiped.preorder.filter (·.kind == kind) =
        (child.preorder.filter (·.kind == kind)).map unpiped) →
      ((ns.map unpiped).flatMap preorder).filter (·.kind == kind) =
        ((ns.flatMap preorder).filter (·.kind == kind)).map unpiped := by
    intro ns each
    rw [List.flatMap_map, List.filter_flatMap, List.filter_flatMap, List.map_flatMap]
    exact List.flatMap_congr each
  induction n, plain using HasPlainPipes.induction with
  | other n plain isOther inductionHypothesis =>
      have sameKind := beq_kind_unpiped plain noPipe noCall
      have sameChildren : n.unpiped.children = n.children.map unpiped := by
        rw [unpiped_of_not_pipe isOther]
      rw [preorder_eq, preorder_eq n, List.filter_cons, List.filter_cons, sameKind, sameChildren,
        among _ inductionHypothesis]
      split <;> rfl
  | pipe n input call _ _ _ isPipe children isCall inputSame argumentsSame =>
      have here : (n.kind == kind) = false := by
        rw [isPipe, beq_eq_false_iff_ne]
        exact Ne.symm noPipe
      have there : (call.kind == kind) = false := by
        rw [isCall, beq_eq_false_iff_ne]
        exact Ne.symm noCall
      rw [unpiped_of_pipe isPipe children isCall, preorder_eq, preorder_eq n, children]
      simp only [List.flatMap_cons, List.flatMap_nil, List.append_nil, List.filter_cons, here, there,
        preorder_eq call, List.filter_append, List.map_append, inputSame, among _ argumentsSame,
        Bool.false_eq_true, if_false]

theorem kind_ne_pipe_of_mem_unpiped (plain : n.HasPlainPipes) :
    ∀ m ∈ n.unpiped.preorder, m.kind ≠ .pipe := by
  have among : ∀ ns : List Node,
      (∀ child ∈ ns, ∀ m ∈ child.unpiped.preorder, m.kind ≠ .pipe) →
      ∀ child ∈ ns.map unpiped, ∀ m ∈ child.preorder, m.kind ≠ .pipe := by
    intro ns each child member
    obtain ⟨before, listed, rfl⟩ := List.mem_map.mp member
    exact each before listed
  induction n, plain using HasPlainPipes.induction with
  | other n plain isOther inductionHypothesis =>
      rw [unpiped_of_not_pipe isOther]
      intro m member
      rcases mem_preorder_iff.mp member with rfl | ⟨child, childMember, below⟩
      · exact isOther
      · exact among _ inductionHypothesis child childMember m below
  | pipe n input call _ _ _ isPipe children isCall inputFree argumentsFree =>
      rw [unpiped_of_pipe isPipe children isCall]
      intro m member
      rcases mem_preorder_iff.mp member with rfl | ⟨child, childMember, below⟩
      · rw [isCall]
        decide
      · rcases List.mem_cons.mp childMember with rfl | isArgument
        · exact inputFree m below
        · exact among _ argumentsFree child isArgument m below

/-! ## Calls -/

/-- The node without its children. -/
def bare (n : Node) : Node :=
  { n with children := [] }

/-- A call site without the arguments of the call, of which only the number
is kept. -/
def bareCall (called : Node × Nat) : Node × Nat :=
  (called.1.bare, called.2)

theorem callsAll_eq_flatMap_callsBelow (ns : List Node) :
    callsAll ns = ns.flatMap (callsBelow false) := by
  induction ns with
  | nil => rfl
  | cons n rest inductionHypothesis =>
      rw [callsAll, inductionHypothesis, List.flatMap_cons]

theorem callsBelow_of_call (isCall : n.kind = .call) (piped : Bool) :
    n.callsBelow piped = (n, n.children.length + if piped then 1 else 0) ::
      n.children.flatMap (callsBelow false) := by
  obtain ⟨kind, span, attributes, children⟩ := n
  cases isCall
  rw [callsBelow, callsAll_eq_flatMap_callsBelow]

theorem callsBelow_of_pipe (isPipe : n.kind = .pipe) (children : n.children = [input, call])
    (isCall : call.kind = .call) :
    n.callsBelow false = input.callsBelow false ++ (call, call.children.length + 1) ::
      call.children.flatMap (callsBelow false) := by
  obtain ⟨kind, span, attributes, _⟩ := n
  cases isPipe
  cases children
  rw [callsBelow, callsOfPipe, callsBelow_of_call isCall, callsAll, List.append_nil]
  rfl

theorem callsBelow_of_other (noModule : n.kind ≠ .module) (noCall : n.kind ≠ .call)
    (noPipe : n.kind ≠ .pipe) :
    n.callsBelow false = n.children.flatMap (callsBelow false) := by
  obtain ⟨kind, span, attributes, children⟩ := n
  rw [← callsAll_eq_flatMap_callsBelow]
  cases kind <;> first | rfl | exact absurd rfl noModule | exact absurd rfl noCall |
    exact absurd rfl noPipe

/-- The calls are the same up to their order: a pipe lists its call after
those of the input, the call itself comes before its first argument. -/
theorem callsBelow_unpiped (plain : n.HasPlainPipes) :
    ((n.unpiped.callsBelow false).map bareCall).Perm ((n.callsBelow false).map bareCall) := by
  have among : ∀ ns : List Node,
      (∀ child ∈ ns, ((child.unpiped.callsBelow false).map bareCall).Perm
        ((child.callsBelow false).map bareCall)) →
      (((ns.map unpiped).flatMap (callsBelow false)).map bareCall).Perm
        ((ns.flatMap (callsBelow false)).map bareCall) := by
    intro ns each
    rw [List.flatMap_map, List.map_flatMap, List.map_flatMap]
    exact List.Perm.flatMap_left ns each
  induction n, plain using HasPlainPipes.induction with
  | other n plain isOther inductionHypothesis =>
      have isUnpiped := unpiped_of_not_pipe isOther
      by_cases isModule : n.kind = .module
      · have nothing : ∀ m : Node, m.kind = .module → m.callsBelow false = [] := by
          rintro ⟨_, _, _, _⟩ rfl
          rfl
        rw [nothing n isModule, nothing n.unpiped (by rw [isUnpiped]; exact isModule)]
      · by_cases isCall : n.kind = .call
        · have unpipedCall : n.unpiped.kind = .call := by
            rw [isUnpiped]
            exact isCall
          rw [callsBelow_of_call isCall, callsBelow_of_call unpipedCall, isUnpiped]
          simp only [List.map_cons, List.length_map]
          exact (among _ inductionHypothesis).cons _
        · rw [isUnpiped, callsBelow_of_other isModule isCall isOther,
            callsBelow_of_other (n := { n with children := n.children.map unpiped }) isModule
              isCall isOther]
          exact among _ inductionHypothesis
  | pipe n input call _ _ _ isPipe children isCall inputSame argumentsSame =>
      have unpipedCall : n.unpiped.kind = .call := by
        rw [unpiped_of_pipe isPipe children isCall]
        exact isCall
      rw [callsBelow_of_pipe isPipe children isCall, callsBelow_of_call unpipedCall,
        unpiped_of_pipe isPipe children isCall]
      simp only [List.map_cons, List.map_append, List.length_cons, List.length_map,
        List.flatMap_cons]
      refine List.Perm.trans ?_ List.perm_middle.symm
      exact (inputSame.append (among _ argumentsSame)).cons _

theorem calls_unpiped (plain : n.HasPlainPipes) (noModule : n.kind ≠ .module) :
    (n.unpiped.calls.map bareCall).Perm (n.calls.map bareCall) := by
  have stillNone : n.unpiped.kind ≠ .module := by
    rw [Ne, kind_unpiped_eq_iff plain (by decide) (by decide)]
    exact noModule
  rw [calls, calls, if_neg noModule, if_neg stillNone]
  exact callsBelow_unpiped plain

/-- An expression makes the same call with as many arguments. -/
theorem callTarget?_unpiped (plain : n.HasPlainPipes) :
    n.unpiped.callTarget?.map bareCall = n.callTarget?.map bareCall := by
  by_cases isPipe : n.kind = .pipe
  · obtain ⟨input, call, children, isCall⟩ := plain n (mem_preorder_self n) isPipe
    rw [unpiped_of_pipe isPipe children isCall]
    simp [callTarget?, pipedCall?, isPipe, isCall, children, bareCall, bare]
  · rw [unpiped_of_not_pipe isPipe]
    cases kindOf : n.kind with
    | call => simp [callTarget?, kindOf, bareCall, bare]
    | pipe => exact absurd kindOf isPipe
    | _ => simp [callTarget?, kindOf]

end StyleAudit.Node
