import Mathlib.Data.List.Pairwise
import Mathlib.Order.WithBot
import StyleAudit.Proofs.Rule.CallOrigin
import StyleAudit.Rule.WithElse

/-!
# The order of the branches of an `else`

Each branch of the `else` of a `with` that is not a catch-all is mapped to the
first clause that it can come from (`IsFirstClause`). The rule is silent when the
clauses, in the order of the branches, do not go back, and otherwise names the
first branch that goes back (`order_followsClauses`). As other branches do not
matter to the clause of a branch, sorting the branches by their clauses silences
the rule.
-/

namespace StyleAudit

/-- A child with other branches if it is an `else`. -/
def Node.replaceBranches (branches : List Node) (child : Node) : Node :=
  if child.kind = .elseBlock then { child with children := branches } else child

/-- The node with other branches in its `else`. -/
def Node.withBranches (n : Node) (branches : List Node) : Node :=
  { n with children := n.children.map (Node.replaceBranches branches) }

namespace WithElse

variable {trusted : List String} {scope : ModuleScope} {n : Node}

/-! ## The clause of a branch -/

/-- The values that a clause is known to produce: its expression, if it makes no
call, or what the clauses of the called function of the module return. Values
only known at run time and nested `with` expressions are left out. -/
inductive Yields (scope : ModuleScope) (target : Target) : Node → Prop
  | value (callless : target.call = none)
      (known : target.expression.kind.isOpaque = false) :
      Yields scope target target.expression
  | returned {call body site : Node} {group : FunctionGroup} (calls : target.call = some call)
      (isLocal : target.isLocal = true)
      (resolved : scope.resolve? ⟨call.name, target.arity⟩ = some group)
      (isBody : body ∈ group.bodies) (ends : site ∈ body.terminals)
      (known : site.kind.isOpaque = false) (direct : site.kind ≠ .withExpr) :
      Yields scope target site

/-- A branch with this pattern can come from a clause that produces a value which
its own pattern does not match and the branch could. Of a clause without known
values only the shape of its pattern is compared. -/
def ComesFrom (scope : ModuleScope) (pattern : Node) (target : Target) : Prop :=
  (∃ site, Yields scope target site ∧ target.pattern.unifies site = false ∧
    pattern.unifies site = true) ∨
  (∀ site, ¬Yields scope target site) ∧ pattern.sameShape target.pattern = true

/-- A branch is not a catch-all, and the clause at an index is the first one that
it can come from. -/
def IsFirstClause (scope : ModuleScope) (targets : List Target) (branch : Node) (index : Nat) :
    Prop :=
  ∃ pattern body target, branch.branchParts? = some (pattern, body) ∧
    pattern.isCatchAll = false ∧ targets[index]? = some target ∧
    ComesFrom scope pattern target ∧
    ∀ earlier < index, ∀ other, targets[earlier]? = some other → ¬ComesFrom scope pattern other

section Clause

variable {target : Target} {pattern branch : Node} {targets : List Target} {index : Nat}

theorem yields_iff_of_call {call site : Node} (calls : target.call = some call) :
    Yields scope target site ↔ target.isLocal = true ∧
      ∃ group, scope.resolve? ⟨call.name, target.arity⟩ = some group ∧
        site ∈ (group.bodies.flatMap (·.terminals)).filter fun site =>
          !site.kind.isOpaque && site.kind != .withExpr := by
  simp only [List.mem_filter, List.mem_flatMap, Bool.and_eq_true, Bool.not_eq_true', bne_iff_ne]
  constructor
  · intro yields
    cases yields with
    | value callless => rw [callless] at calls; cases calls
    | returned sameCall isLocal resolved isBody ends known direct =>
        rw [calls] at sameCall
        cases sameCall
        exact ⟨isLocal, _, resolved, ⟨_, isBody, ends⟩, known, direct⟩
  · rintro ⟨isLocal, group, resolved, ⟨body, isBody, ends⟩, known, direct⟩
    exact .returned calls isLocal resolved isBody ends known direct

theorem yields_iff_of_value {site : Node} (callless : target.call = none) :
    Yields scope target site ↔
      target.expression.kind.isOpaque = false ∧ site = target.expression := by
  constructor
  · intro yields
    cases yields with
    | value _ known => exact ⟨known, rfl⟩
    | returned calls => rw [callless] at calls; cases calls
  · rintro ⟨known, rfl⟩
    exact .value callless known

/-- The values of a clause are known when there are any; those that its own
pattern matches are left out. -/
theorem failureSites?_eq (scope : ModuleScope) (target : Target) :
    (failureSites? scope target = none ∧ ∀ site, ¬Yields scope target site) ∨
      ∃ sites : List Node, failureSites? scope target =
          some (sites.filter fun site => !target.pattern.unifies site) ∧
        sites ≠ [] ∧ ∀ site, site ∈ sites ↔ Yields scope target site := by
  rw [failureSites?]
  cases calls : target.call with
  | none =>
      simp only [yields_iff_of_value calls]
      cases target.expression.kind.isOpaque with
      | true => exact Or.inl ⟨rfl, by simp⟩
      | false => exact Or.inr ⟨[target.expression], rfl, by simp, by simp⟩
  | some call =>
      simp only [yields_iff_of_call calls]
      cases target.isLocal with
      | false => exact Or.inl ⟨rfl, by simp⟩
      | true =>
          cases resolved : scope.resolve? ⟨call.name, target.arity⟩ with
          | none => exact Or.inl ⟨by simp, by simp⟩
          | some group =>
              simp only [if_true, true_and, Option.some.injEq, exists_eq_left']
              generalize (group.bodies.flatMap (·.terminals)).filter (fun site =>
                !site.kind.isOpaque && site.kind != .withExpr) = known
              cases known with
              | nil => exact Or.inl ⟨rfl, by simp⟩
              | cons first rest =>
                  exact Or.inr ⟨first :: rest, rfl, List.cons_ne_nil first rest, fun _ => Iff.rfl⟩

/-- The test decides whether a branch can come from a clause. -/
theorem canHandle_iff : canHandle scope pattern target = true ↔ ComesFrom scope pattern target := by
  rw [canHandle, ComesFrom]
  rcases failureSites?_eq scope target with ⟨unknown, nothing⟩ | ⟨sites, known, filled, all⟩
  · rw [unknown]
    constructor
    · intro sameShape
      exact Or.inr ⟨nothing, sameShape⟩
    · rintro (⟨site, yields, _⟩ | ⟨_, sameShape⟩)
      · exact absurd yields (nothing site)
      · exact sameShape
  · rw [known]
    simp only [List.any_eq_true, List.mem_filter, Bool.not_eq_true', all, and_assoc]
    refine (or_iff_left ?_).symm
    rintro ⟨nothing, _⟩
    obtain ⟨site, member⟩ := List.exists_mem_of_ne_nil sites filled
    exact nothing site ((all site).mp member)

/-- The index of a branch is that of the first clause that it can come from. -/
theorem clauseIndex?_eq_some_iff :
    clauseIndex? scope targets branch = some index ↔ IsFirstClause scope targets branch index := by
  rw [clauseIndex?, IsFirstClause]
  cases branch.branchParts? with
  | none => simp
  | some parts =>
      obtain ⟨pattern, body⟩ := parts
      simp only [Option.some.injEq, Prod.mk.injEq]
      cases catchesAll : pattern.isCatchAll with
      | true =>
          constructor
          · intro impossible
            cases impossible
          · rintro ⟨_, _, _, ⟨rfl, rfl⟩, notAll, _⟩
            rw [catchesAll] at notAll
            cases notAll
      | false =>
          rw [if_neg Bool.false_ne_true, List.findIdx?_eq_some_iff_getElem]
          simp only [canHandle_iff]
          constructor
          · rintro ⟨inside, comes, first⟩
            refine ⟨pattern, body, targets[index], ⟨rfl, rfl⟩, catchesAll,
              List.getElem?_eq_getElem inside, comes, ?_⟩
            intro earlier before other here
            obtain ⟨_, rfl⟩ := List.getElem?_eq_some_iff.mp here
            exact first earlier before
          · rintro ⟨_, _, target, ⟨rfl, rfl⟩, _, here, comes, first⟩
            obtain ⟨inside, rfl⟩ := List.getElem?_eq_some_iff.mp here
            refine ⟨inside, comes, ?_⟩
            intro earlier before
            exact first earlier before _ (List.getElem?_eq_getElem _)

end Clause

/-! ## The first inversion -/

section Inversion

variable {index? : Node → Option Nat} {highest : Option Nat} {branches : List Node}

/-- No branch comes too late when the clauses do not go back. The highest clause
so far is the last one. -/
theorem firstInversion?_eq_none_iff :
    firstInversion? index? highest branches = none ↔
      (highest.toList ++ branches.filterMap index?).IsChain (· ≤ ·) := by
  induction branches generalizing highest with
  | nil => cases highest <;> simp [firstInversion?]
  | cons branch rest inductionHypothesis =>
      rw [firstInversion?]
      cases found : index? branch with
      | none =>
          rw [List.filterMap_cons_none found]
          exact inductionHypothesis
      | some index =>
          rw [List.filterMap_cons_some found]
          cases highest with
          | none => exact inductionHypothesis
          | some high =>
              rw [Option.toList_some, List.singleton_append, List.isChain_cons_cons]
              by_cases goesBack : index < high
              · simp [goesBack]
              · simp only [goesBack, if_false, Nat.not_lt.mp goesBack, true_and]
                exact inductionHypothesis

/-- A branch that comes too late goes back behind the last clause before it. -/
theorem exists_of_firstInversion? {branch : Node} {index high : Nat}
    (found : firstInversion? index? highest branches = some (branch, index, high)) :
    ∃ before after, branches = before ++ branch :: after ∧ index? branch = some index ∧
      index < high ∧ (highest.toList ++ before.filterMap index?).IsChain (· ≤ ·) ∧
      (highest.toList ++ before.filterMap index?).getLast? = some high := by
  induction branches generalizing highest with
  | nil => cases found
  | cons first rest inductionHypothesis =>
      rw [firstInversion?] at found
      cases mapped : index? first with
      | none =>
          rw [mapped] at found
          obtain ⟨before, after, rfl, isIndex, goesBack, chain, last⟩ := inductionHypothesis found
          refine ⟨first :: before, after, rfl, isIndex, goesBack, ?_⟩
          rw [List.filterMap_cons_none mapped]
          exact ⟨chain, last⟩
      | some firstIndex =>
          rw [mapped] at found
          cases highest with
          | none =>
              obtain ⟨before, after, rfl, isIndex, goesBack, chain, last⟩ :=
                inductionHypothesis found
              refine ⟨first :: before, after, rfl, isIndex, goesBack, ?_⟩
              rw [List.filterMap_cons_some mapped]
              exact ⟨chain, last⟩
          | some firstHigh =>
              simp only at found
              split at found
              · rename_i goesBack
                cases found
                exact ⟨[], rest, rfl, mapped, goesBack, List.IsChain.singleton _, rfl⟩
              · rename_i notBack
                obtain ⟨before, after, rfl, isIndex, goesBack, chain, last⟩ :=
                  inductionHypothesis found
                refine ⟨first :: before, after, rfl, isIndex, goesBack, ?_, ?_⟩
                · rw [List.filterMap_cons_some mapped]
                  exact List.isChain_cons_cons.mpr ⟨Nat.not_lt.mp notBack, chain⟩
                · rw [List.filterMap_cons_some mapped]
                  exact last

end Inversion

/-! ## Sorted branches -/

/-- The clause of a branch, and after all clauses where it has none. -/
def place (index? : Node → Option Nat) (branch : Node) : WithTop Nat :=
  (index? branch).elim ⊤ WithTop.some

/-- The branches in the order of their clauses, those without one last. -/
def sortBranches (index? : Node → Option Nat) (branches : List Node) : List Node :=
  branches.mergeSort fun branch other => decide (place index? branch ≤ place index? other)

/-- A list of branches is another one, sorted by clauses and without swapping
branches of the same clause. -/
structure IsStableSort (index? : Node → Option Nat) (branches sorted : List Node) : Prop where
  perm : sorted.Perm branches
  ordered : sorted.Pairwise fun branch other => place index? branch ≤ place index? other
  stable : ∀ index, sorted.filter (fun branch => index? branch == index) =
    branches.filter fun branch => index? branch == index

section Sorted

variable {index? : Node → Option Nat} {branches sorted : List Node}

/-- Sorting the branches by their indices keeps the order of those with the same
index and of those with none. -/
theorem isStableSort_sortBranches (index? : Node → Option Nat) (branches : List Node) :
    IsStableSort index? branches (sortBranches index? branches) := by
  have trans : ∀ first second third : Node,
      decide (place index? first ≤ place index? second) = true →
        decide (place index? second ≤ place index? third) = true →
          decide (place index? first ≤ place index? third) = true := by
    intro first second third
    simp only [decide_eq_true_eq]
    exact le_trans
  have total : ∀ first second : Node, (decide (place index? first ≤ place index? second) ||
      decide (place index? second ≤ place index? first)) = true := by
    intro first second
    simp only [Bool.or_eq_true, decide_eq_true_eq]
    exact le_total _ _
  have perm : (sortBranches index? branches).Perm branches := List.mergeSort_perm _ _
  refine ⟨perm, ?_, ?_⟩
  · exact (List.pairwise_mergeSort trans total branches).imp of_decide_eq_true
  · intro index
    have alike : (branches.filter fun branch => index? branch == index).Pairwise fun branch other =>
        decide (place index? branch ≤ place index? other) = true := by
      apply List.pairwise_of_forall_mem_list
      intro branch member other otherMember
      have isIndex := beq_iff_eq.mp (List.mem_filter.mp member).2
      have isSame := beq_iff_eq.mp (List.mem_filter.mp otherMember).2
      rw [place, place, isIndex, isSame]
      exact decide_eq_true (le_refl _)
    have kept := (List.sublist_mergeSort trans total alike List.filter_sublist).filter
      fun branch => index? branch == index
    rw [List.filter_filter] at kept
    simp only [Bool.and_self] at kept
    exact (kept.eq_of_length (perm.filter _).length_eq.symm).symm

theorem pairwise_of_ordered
    (ordered : sorted.Pairwise fun branch other => place index? branch ≤ place index? other) :
    (sorted.filterMap index?).Pairwise (· ≤ ·) := by
  rw [List.pairwise_filterMap]
  refine ordered.imp ?_
  intro branch other inOrder index isIndex otherIndex isOther
  rw [place, place, isIndex, isOther] at inOrder
  exact WithTop.coe_le_coe.mp inOrder

end Sorted

/-! ## Other branches -/

section Edit

variable {others : List Node} {child : Node}

theorem kind_replaceBranches (others : List Node) (child : Node) :
    (child.replaceBranches others).kind = child.kind := by
  rw [Node.replaceBranches]
  split <;> rfl

theorem childrenOfKind_withBranches {kind : Kind} (notElse : kind ≠ .elseBlock) :
    (n.withBranches others).childrenOfKind kind = n.childrenOfKind kind := by
  rw [Node.childrenOfKind, Node.withBranches, List.filter_map]
  simp only [Function.comp_def, kind_replaceBranches]
  refine (List.map_congr_left fun child member => ?_).trans (List.map_id _)
  rw [Node.replaceBranches, if_neg, id]
  rw [beq_iff_eq.mp (List.mem_filter.mp member).2]
  exact notElse

theorem withTargets_withBranches :
    withTargets trusted scope (n.withBranches others) = withTargets trusted scope n := by
  rw [withTargets, withTargets, childrenOfKind_withBranches (by decide)]

theorem elseBranches?_withBranches :
    elseBranches? (n.withBranches others) = (elseBranches? n).map fun _ => others := by
  rw [elseBranches?, elseBranches?, Node.childOfKind?, Node.withBranches, List.find?_map]
  simp only [Function.comp_def, kind_replaceBranches]
  change ((n.childOfKind? .elseBlock).map _).map _ = ((n.childOfKind? .elseBlock).map _).map _
  cases found : n.childOfKind? .elseBlock with
  | none => rfl
  | some elseBlock =>
      rw [Option.map_some, Option.map_some, Option.map_some, Option.map_some,
        Node.replaceBranches, if_pos (Node.kind_of_childOfKind? found)]

end Edit

/-! ## The rule -/

/-- What the rule says about the branches of an `else`, with the clauses that they
are mapped to. -/
structure FollowsClauses (trusted : List String) (scope : ModuleScope) (n : Node)
    (branches : List Node) (index? : Node → Option Nat) : Prop where
  /-- A branch is mapped to the first clause that it can come from. -/
  mapped : ∀ branch index, index? branch = some index ↔
    IsFirstClause scope (withTargets trusted scope n) branch index
  silent : order trusted scope n = [] ↔ (branches.filterMap index?).Pairwise (· ≤ ·)
  /-- Otherwise the first branch whose clause stands before that of an earlier
  branch is named, with its clause and the last clause of the earlier ones. -/
  named : order trusted scope n ≠ [] →
    ∃ before branch after index high, branches = before ++ branch :: after ∧
      index? branch = some index ∧ (before.filterMap index?).Pairwise (· ≤ ·) ∧
      high ∈ before.filterMap index? ∧ (∀ other ∈ before.filterMap index?, other ≤ high) ∧
      index < high ∧ order trusted scope n = [misplaced (branch, index, high)]
  /-- The clause of a branch does not depend on the other branches. -/
  independent : ∀ others,
    clauseIndex? scope (withTargets trusted scope (n.withBranches others)) = index?
  sortable : IsStableSort index? branches (sortBranches index? branches) ∧
    order trusted scope (n.withBranches (sortBranches index? branches)) = []

theorem order_eq_nil_iff : order trusted scope n = [] ↔
    (((elseBranches? n).getD []).filterMap
      (clauseIndex? scope (withTargets trusted scope n))).Pairwise (· ≤ ·) := by
  rw [order, Option.toList_eq_nil_iff, Option.map_eq_none_iff, firstInversion?_eq_none_iff,
    List.isChain_iff_pairwise]
  rfl

/-- A record about the order names the first branch that stands behind one of a later
clause. -/
theorem exists_of_order_ne_nil (fires : order trusted scope n ≠ []) :
    ∃ before branch after index high,
      (elseBranches? n).getD [] = before ++ branch :: after ∧
      clauseIndex? scope (withTargets trusted scope n) branch = some index ∧ index < high ∧
      (before.filterMap (clauseIndex? scope (withTargets trusted scope n))).Pairwise (· ≤ ·) ∧
      (before.filterMap (clauseIndex? scope (withTargets trusted scope n))).getLast? = some high ∧
      order trusted scope n = [misplaced (branch, index, high)] := by
  rw [order] at fires ⊢
  cases found : firstInversion? (clauseIndex? scope (withTargets trusted scope n)) none
      ((elseBranches? n).getD []) with
  | none =>
      rw [found] at fires
      exact absurd rfl fires
  | some inversion =>
      obtain ⟨branch, index, high⟩ := inversion
      obtain ⟨before, after, split, isIndex, goesBack, chain, last⟩ :=
        exists_of_firstInversion? found
      exact ⟨before, branch, after, index, high, split, isIndex, goesBack,
        List.isChain_iff_pairwise.mp chain, last, rfl⟩

theorem le_of_getLast? {indices : List Nat} {high : Nat} (ordered : indices.Pairwise (· ≤ ·))
    (last : indices.getLast? = some high) : ∀ index ∈ indices, index ≤ high := by
  obtain ⟨earlier, rfl⟩ := List.getLast?_eq_some_iff.mp last
  intro index member
  rcases List.mem_append.mp member with isEarlier | isLast
  · exact (List.pairwise_append.mp ordered).2.2 index isEarlier high List.mem_cons_self
  · exact Nat.le_of_eq (List.mem_singleton.mp isLast)

/-- The rule is silent exactly when the branches follow the clauses that they can
come from first, and otherwise names the first branch that does not. -/
theorem order_followsClauses (trusted : List String) (scope : ModuleScope) (n : Node) :
    FollowsClauses trusted scope n ((elseBranches? n).getD [])
      (clauseIndex? scope (withTargets trusted scope n)) := by
  have independent : ∀ others,
      clauseIndex? scope (withTargets trusted scope (n.withBranches others)) =
        clauseIndex? scope (withTargets trusted scope n) := by
    intro others
    rw [withTargets_withBranches]
  refine ⟨fun branch index => clauseIndex?_eq_some_iff, order_eq_nil_iff, ?_, independent, ?_⟩
  · intro fires
    obtain ⟨before, branch, after, index, high, split, isIndex, goesBack, ordered, last, named⟩ :=
      exists_of_order_ne_nil fires
    exact ⟨before, branch, after, index, high, split, isIndex, ordered,
      List.mem_of_getLast? last, le_of_getLast? ordered last, goesBack, named⟩
  · have sorted := isStableSort_sortBranches (clauseIndex? scope (withTargets trusted scope n))
      ((elseBranches? n).getD [])
    refine ⟨sorted, ?_⟩
    rw [order_eq_nil_iff, independent, elseBranches?_withBranches]
    cases found : elseBranches? n with
    | none => exact List.Pairwise.nil
    | some branches =>
        rw [found] at sorted
        exact pairwise_of_ordered sorted.ordered

/-! ## Two clauses and their branches -/

def atomForm (line : Nat) (value : String) : Node :=
  ⟨.atom, lineSpan line, [("value", .one (.text value))], []⟩

def branchForm (line : Nat) (pattern : Node) : Node :=
  ⟨.branch, lineSpan line, [], [pattern, ⟨.block, lineSpan line, [], [atomForm line "none"]⟩]⟩

/-- A `with` over two functions of the module, of which the second one fails with
a tagged reason. -/
def handlingWith (branches : List Node) : Node :=
  ⟨.withExpr, lineSpan 3, [],
    [⟨.withClause, lineSpan 3, [], [atomForm 3 "ok", callForm 3 .null "g" []]⟩,
      ⟨.withClause, lineSpan 4, [], [atomForm 4 "ok", callForm 4 .null "h" []]⟩,
      ⟨.block, lineSpan 5, [], [atomForm 5 "ok"]⟩, ⟨.elseBlock, lineSpan 6, [], branches⟩]⟩

def taggedBranch : Node :=
  branchForm 7 ⟨.tuple, lineSpan 7, [], [atomForm 7 "error", neededParam 7]⟩

def plainBranch : Node :=
  branchForm 9 (atomForm 9 "error")

/-- The last branch catches everything. -/
def handlingBranches : List Node :=
  [taggedBranch, plainBranch, branchForm 11 (neededParam 11)]

def handlingForms (branches : List Node) : List Node :=
  [functionForm 2 "f" "public" [] [handlingWith branches],
    functionForm 14 "g" "private" [] [atomForm 15 "error"],
    functionForm 17 "h" "private" []
      [⟨.tuple, lineSpan 18, [], [atomForm 18 "error", atomForm 18 "late"]⟩]]

theorem order_followsClauses_swapped :
    ∃ scope, ModuleScope.ofModule (fun _ => false)
        (moduleOf (handlingForms handlingBranches)) = .ok scope ∧
      handlingBranches.map (clauseIndex? scope
        (withTargets [] scope (handlingWith handlingBranches))) = [some 1, some 0, none] ∧
      order [] scope (handlingWith handlingBranches) = [misplaced (plainBranch, 0, 1)] ∧
      FollowsClauses [] scope (handlingWith handlingBranches) handlingBranches
        (clauseIndex? scope (withTargets [] scope (handlingWith handlingBranches))) := by
  have indexed : ModuleScope.ofModule (fun _ => false)
      (moduleOf (handlingForms handlingBranches)) = .ok _ := rfl
  exact ⟨_, indexed, by decide, by rfl,
    order_followsClauses [] _ (handlingWith handlingBranches)⟩

end WithElse
end StyleAudit
