import Mathlib.Data.List.Forall2
import StyleAudit.Proofs.Outcome
import StyleAudit.Proofs.Report.Selection
import StyleAudit.Rule.Check

/-!
# Trusting more modules

When more modules are trusted, the calls into them count as resolved and all
else about the targets of a `with` or `case` stays the same (`Target.TrustedAs`).
The rules about unresolved targets then report at fewer places, the rule about
resolved ones at more, and the order of an `else` does not depend on trust at
all (`order_eq_of_trusted`).
-/

namespace StyleAudit

variable {trusted more : List String} {scope : ModuleScope} {n : Node}

/-! ## Targets -/

/-- The origin of a call when more modules are trusted. -/
structure Origin.TrustedAs (origin other : Origin) : Prop where
  module : other.module = origin.module
  isLocal : other.isLocal = origin.isLocal
  resolves : origin.isResolved = true → other.isResolved = true

/-- The target when more modules are trusted. -/
structure Target.TrustedAs (target other : Target) : Prop where
  same : { other with isResolved := target.isResolved } = target
  resolves : target.isResolved = true → other.isResolved = true

theorem contains_of_subset (grows : trusted ⊆ more) {name : String}
    (isTrusted : trusted.contains name = true) : more.contains name = true := by
  rw [List.contains_iff_mem] at isTrusted ⊢
  exact grows isTrusted

theorem unqualifiedOrigin_trustedAs (grows : trusted ⊆ more) (scope : ModuleScope)
    (key : FunctionKey) :
    (unqualifiedOrigin trusted scope key).TrustedAs (unqualifiedOrigin more scope key) := by
  rw [unqualifiedOrigin, unqualifiedOrigin]
  cases importedFrom? scope.imports key with
  | some target => exact ⟨rfl, rfl, contains_of_subset grows⟩
  | none =>
      cases scope.imports.any (·.importsUnknownNames) with
      | true => exact ⟨rfl, rfl, id⟩
      | false => exact ⟨rfl, rfl, contains_of_subset grows⟩

/-- More trust can make the origin of a call resolved and changes nothing else of it. -/
theorem callOrigin_trustedAs (grows : trusted ⊆ more) (scope : ModuleScope) (call : Node)
    (arity : Nat) :
    (callOrigin trusted scope call arity).TrustedAs (callOrigin more scope call arity) := by
  simp only [callOrigin]
  split
  · split
    · exact ⟨rfl, rfl, id⟩
    · cases call.qualifier? with
      | some module => exact ⟨rfl, rfl, id⟩
      | none => exact unqualifiedOrigin_trustedAs grows scope _
  · refine ⟨rfl, rfl, ?_⟩
    intro isTrusted
    cases named : call.qualifier? with
    | none =>
        rw [named] at isTrusted
        cases isTrusted
    | some module =>
        rw [named] at isTrusted
        exact contains_of_subset grows isTrusted

theorem Target.ofExpression_trustedAs (grows : trusted ⊆ more) (scope : ModuleScope)
    (pattern expression : Node) :
    (ofExpression trusted scope pattern expression).TrustedAs
      (ofExpression more scope pattern expression) := by
  rw [ofExpression, ofExpression]
  cases expression.callTarget? with
  | none => exact ⟨rfl, id⟩
  | some called =>
      obtain ⟨call, arity⟩ := called
      have origin := callOrigin_trustedAs grows scope call arity
      refine ⟨?_, origin.resolves⟩
      simp only [origin.module, origin.isLocal]

theorem Target.TrustedAs.isForeign {target other : Target} (trustedAs : target.TrustedAs other)
    (foreign : other.isForeign = true) : target.isForeign = true := by
  have sameCall : other.call = target.call := by rw [← trustedAs.same]
  have sameLocal : other.isLocal = target.isLocal := by rw [← trustedAs.same]
  rw [Target.isForeign, sameCall, sameLocal] at foreign
  rw [Target.isForeign]
  cases resolved : target.isResolved with
  | true =>
      rw [trustedAs.resolves resolved, Bool.not_true, Bool.and_false] at foreign
      cases foreign
  | false =>
      rw [Bool.and_eq_true] at foreign
      rw [foreign.1]
      rfl

theorem withTargets_trustedAs (grows : trusted ⊆ more) (scope : ModuleScope) (n : Node) :
    List.Forall₂ Target.TrustedAs (withTargets trusted scope n) (withTargets more scope n) := by
  have asMap : ∀ names, withTargets names scope n =
      ((n.childrenOfKind .withClause).filterMap Node.branchParts?).map fun parts =>
        Target.ofExpression names scope parts.1 parts.2 :=
    fun names => List.map_filterMap.symm
  rw [asMap, asMap, List.forall₂_map_left_iff, List.forall₂_map_right_iff, List.forall₂_same]
  exact fun parts _ => Target.ofExpression_trustedAs grows scope parts.1 parts.2

theorem all_of_forall₂ {item : Type} {related : item → item → Prop} {test : item → Bool}
    {items others : List item} (pairs : List.Forall₂ related items others)
    (keeps : ∀ a b, related a b → test a = true → test b = true)
    (passes : items.all test = true) : others.all test = true := by
  rw [List.all_eq_true] at passes ⊢
  intro b member
  obtain ⟨a, given, pair⟩ := Outcome.exists_of_forall₂_of_mem_right pairs member
  exact keeps a b pair (passes a given)

theorem findIdx?_eq_of_forall₂ {item : Type} {related : item → item → Prop} {test : item → Bool}
    {items others : List item} (pairs : List.Forall₂ related items others)
    (sameTest : ∀ a b, related a b → test a = test b) :
    items.findIdx? test = others.findIdx? test := by
  induction pairs with
  | nil => rfl
  | cons pair _ inductionHypothesis =>
      rw [List.findIdx?_cons, List.findIdx?_cons, sameTest _ _ pair, inductionHypothesis]

/-- A list that is left out more often. -/
theorem ite_nil_sublist {item : Type} {skips skipsMore : Bool} (items : List item)
    (leavesOut : skips = true → skipsMore = true) :
    (if skipsMore then [] else items).Sublist (if skips then [] else items) := by
  cases skips with
  | true => simp [leavesOut rfl]
  | false =>
      cases skipsMore with
      | true => exact List.nil_sublist _
      | false => exact List.Sublist.refl _

/-! ## The `else` of a `with` -/

namespace WithElse

theorem uncovered_spans (n : Node) (targets : List Target) :
    (uncovered n targets).map (·.span) = if targets.all (·.isResolved) then [] else [n.span] := by
  have noneLeft : (targets.filter fun target => !target.isResolved).isEmpty =
      targets.all (·.isResolved) := by
    rw [Bool.eq_iff_iff, List.isEmpty_iff, List.filter_eq_nil_iff, List.all_eq_true]
    simp
  rw [uncovered, noneLeft]
  split <;> rfl

theorem coverage_spans_sublist (grows : trusted ⊆ more) (scope : ModuleScope) (n : Node) :
    ((coverage more scope n).map (·.span)).Sublist
      ((coverage trusted scope n).map (·.span)) := by
  rw [coverage, coverage]
  split
  · exact List.Sublist.refl _
  · rw [uncovered_spans, uncovered_spans]
    apply ite_nil_sublist
    exact all_of_forall₂ (withTargets_trustedAs grows scope n) fun _ _ pair => pair.resolves

/-- With more trusted modules, more `else` blocks are redundant. -/
theorem redundancy_sublist (grows : trusted ⊆ more) (scope : ModuleScope) (n : Node) :
    (redundancy trusted scope n).Sublist (redundancy more scope n) := by
  rw [redundancy, redundancy]
  cases n.childOfKind? .elseBlock with
  | none => exact List.Sublist.refl _
  | some elseBlock =>
      have resolved : (withTargets trusted scope n).all (·.isResolved) = true →
          (withTargets more scope n).all (·.isResolved) = true :=
        all_of_forall₂ (withTargets_trustedAs grows scope n) fun _ _ pair => pair.resolves
      simp only
      split
      · rename_i superfluous
        simp only [Bool.and_eq_true] at superfluous
        obtain ⟨⟨holds, all⟩, echoes⟩ := superfluous
        rw [if_pos (by simp only [holds, resolved all, echoes, Bool.and_self])]
      · exact List.nil_sublist _

theorem canHandle_eq_of_trustedAs (scope : ModuleScope) (pattern : Node) {target other : Target}
    (trustedAs : target.TrustedAs other) :
    canHandle scope pattern target = canHandle scope pattern other := by
  rw [← trustedAs.same]
  rfl

/-- The order of branches is judged without regard to trust. -/
theorem order_eq_of_subset (grows : trusted ⊆ more) : order trusted = order more := by
  funext scope n
  have sameIndex : clauseIndex? scope (withTargets trusted scope n) =
      clauseIndex? scope (withTargets more scope n) := by
    funext branch
    rw [clauseIndex?, clauseIndex?]
    cases branch.branchParts? with
    | none => rfl
    | some parts =>
        simp only
        rw [findIdx?_eq_of_forall₂ (withTargets_trustedAs grows scope n) fun _ _ pair =>
          canHandle_eq_of_trustedAs scope parts.1 pair]
  rw [order, order, sameIndex]

/-- The order of an `else` does not depend on the modules trusted. -/
theorem order_eq_of_trusted (trusted others : List String) : order trusted = order others := by
  -- Neither list need contain the other, but both contain the empty one.
  have left : order [] = order trusted := order_eq_of_subset (List.nil_subset trusted)
  have right : order [] = order others := order_eq_of_subset (List.nil_subset others)
  rw [← left, right]

end WithElse

/-! ## Errors of other modules -/

namespace ErrorMapping

theorem branchesAndTargets_trustedAs (grows : trusted ⊆ more) (scope : ModuleScope) (n : Node) :
    (branchesAndTargets more scope n).1 = (branchesAndTargets trusted scope n).1 ∧
      List.Forall₂ Target.TrustedAs (branchesAndTargets trusted scope n).2
        (branchesAndTargets more scope n).2 := by
  rw [branchesAndTargets, branchesAndTargets]
  split
  · exact ⟨rfl, withTargets_trustedAs grows scope n⟩
  · refine ⟨rfl, ?_⟩
    rw [caseTarget?, caseTarget?]
    cases n.children.head? with
    | none => exact List.Forall₂.nil
    | some subject =>
        exact List.Forall₂.cons (Target.ofExpression_trustedAs grows scope subject subject)
          List.Forall₂.nil

theorem check_spans (trusted : List String) (scope : ModuleScope) (n : Node) :
    (check trusted scope n).map (·.span) =
      if (branchesAndTargets trusted scope n).2.all fun target => !target.isForeign then []
      else (branchesAndTargets trusted scope n).1.filterMap fun branch =>
        (echoedTag? branch).map fun _ => branch.span := by
  rw [check]
  generalize branchesAndTargets trusted scope n = parts
  obtain ⟨branches, targets⟩ := parts
  simp only
  have noneForeign : (targets.all fun target => !target.isForeign) = true ↔
      targets.filter (·.isForeign) = [] := by
    rw [List.filter_eq_nil_iff, List.all_eq_true]
    simp
  split
  · rename_i none
    rw [if_pos (noneForeign.mpr none)]
    rfl
  · rename_i origin others some
    rw [if_neg (by rw [noneForeign, some]; exact List.cons_ne_nil _ _), List.map_filterMap]
    refine List.filterMap_congr fun branch _ => ?_
    cases echoedTag? branch <;> rfl

/-- With more trusted modules, fewer branches are reported for passing on errors. -/
theorem check_spans_sublist (grows : trusted ⊆ more) (scope : ModuleScope) (n : Node) :
    ((check more scope n).map (·.span)).Sublist ((check trusted scope n).map (·.span)) := by
  obtain ⟨sameBranches, pairs⟩ := branchesAndTargets_trustedAs grows scope n
  rw [check_spans, check_spans, sameBranches]
  apply ite_nil_sublist
  refine all_of_forall₂ pairs ?_
  intro target other trustedAs notForeign
  rw [Bool.not_eq_true'] at notForeign ⊢
  cases foreign : other.isForeign with
  | false => rfl
  | true =>
      rw [trustedAs.isForeign foreign] at notForeign
      cases notForeign

end ErrorMapping
end StyleAudit
