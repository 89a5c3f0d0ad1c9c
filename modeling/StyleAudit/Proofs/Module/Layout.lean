import Mathlib.Data.List.Nodup
import Mathlib.Logic.Relation

/-!
# Laying out helpers below their callers

`layout` lists items depth first, beginning with the pending ones. An item
claims those of the unclaimed items that it calls as soon as it is listed, not
when they are reached: a helper shared by several callers so belongs to the first
one listed, and cannot come between a deeper caller and a helper of that one.

The result has every item that is reached from the pending ones (`layout_perm`),
and every claimed item stands below the first item that calls it, with nothing
but items claimed later than that between the two (`followsCaller_layout`).
-/

namespace StyleAudit

variable {item : Type}

/-- The items that a caller calls. -/
def calledBy (calls : item → item → Bool) (caller : item) (items : List item) : List item :=
  items.filter (calls caller)

/-- The items that a caller does not call. -/
def uncalledBy (calls : item → item → Bool) (caller : item) (items : List item) : List item :=
  items.filter fun other => !calls caller other

section Called

variable {calls : item → item → Bool} {caller other : item} {items : List item}

theorem mem_calledBy_iff :
    other ∈ calledBy calls caller items ↔ other ∈ items ∧ calls caller other = true :=
  List.mem_filter

theorem mem_uncalledBy_iff :
    other ∈ uncalledBy calls caller items ↔ other ∈ items ∧ calls caller other = false := by
  rw [uncalledBy, List.mem_filter, Bool.not_eq_true']

theorem calledBy_append_perm (calls : item → item → Bool) (caller : item) (items : List item) :
    (calledBy calls caller items ++ uncalledBy calls caller items).Perm items :=
  List.filter_append_perm (calls caller) items

theorem length_calledBy_add (calls : item → item → Bool) (caller : item) (items : List item) :
    (calledBy calls caller items).length + (uncalledBy calls caller items).length =
      items.length := by
  rw [← List.length_append]
  exact (calledBy_append_perm calls caller items).length_eq

end Called

/-- The pending items, each followed by the unclaimed items that it calls and,
depth first, by what these call. -/
def layout (calls : item → item → Bool) : (pending unclaimed : List item) → List item
  | [], _ => []
  | next :: pending, unclaimed =>
    next :: layout calls (calledBy calls next unclaimed ++ pending)
      (uncalledBy calls next unclaimed)
termination_by pending unclaimed => pending.length + unclaimed.length
decreasing_by
  have parts := length_calledBy_add calls next unclaimed
  rw [List.length_append, List.length_cons]
  omega

/-- A helper is listed below the first item that calls it. All items between the
two are helpers, and nothing above that caller calls them. -/
def FollowsCaller (calls : item → item → Bool) (helpers listed : List item) (helper : item) :
    Prop :=
  ∃ before caller between after, listed = before ++ caller :: (between ++ helper :: after) ∧
    calls caller helper = true ∧ (∀ earlier ∈ before, calls earlier helper = false) ∧
    ∀ other ∈ between, other ∈ helpers ∧ ∀ earlier ∈ before, calls earlier other = false

theorem FollowsCaller.mono {calls : item → item → Bool} {helpers others listed : List item}
    {helper : item} (follows : FollowsCaller calls helpers listed helper)
    (subset : ∀ other ∈ helpers, other ∈ others) : FollowsCaller calls others listed helper := by
  obtain ⟨before, caller, between, after, split, isCaller, notBefore, inBetween⟩ := follows
  refine ⟨before, caller, between, after, split, isCaller, notBefore, ?_⟩
  intro other isBetween
  obtain ⟨helps, uncalled⟩ := inBetween other isBetween
  exact ⟨subset other helps, uncalled⟩

section Layout

variable {calls : item → item → Bool} {pending unclaimed : List item}

/-- Pending and unclaimed items are listed, each at most as often as it was
given, and no others. -/
theorem exists_layout_append_perm (calls : item → item → Bool) (pending unclaimed : List item) :
    ∃ left, (layout calls pending unclaimed ++ left).Perm (pending ++ unclaimed) := by
  induction pending, unclaimed using layout.induct calls with
  | case1 unclaimed =>
      refine ⟨unclaimed, ?_⟩
      rw [layout]
  | case2 next pending unclaimed inductionHypothesis =>
      obtain ⟨left, perm⟩ := inductionHypothesis
      refine ⟨left, ?_⟩
      rw [layout, List.cons_append, List.cons_append]
      refine (perm.trans ?_).cons next
      -- The items claimed now go back behind the pending ones.
      refine (List.perm_append_comm.append_right _).trans ?_
      rw [List.append_assoc]
      exact (calledBy_append_perm calls next unclaimed).append_left pending

theorem mem_layout_of_mem_pending {other : item} (member : other ∈ pending) :
    other ∈ layout calls pending unclaimed := by
  induction pending, unclaimed using layout.induct calls with
  | case1 unclaimed => cases member
  | case2 next pending unclaimed inductionHypothesis =>
      rw [layout]
      rcases List.mem_cons.mp member with rfl | later
      · exact List.mem_cons_self
      · exact List.mem_cons_of_mem next
          (inductionHypothesis (List.mem_append_right _ later))

/-- What a listed item calls is listed. -/
theorem mem_layout_of_calls {caller callee : item}
    (listed : caller ∈ layout calls pending unclaimed) (member : callee ∈ unclaimed)
    (called : calls caller callee = true) : callee ∈ layout calls pending unclaimed := by
  induction pending, unclaimed using layout.induct calls with
  | case1 unclaimed =>
      rw [layout] at listed
      cases listed
  | case2 next pending unclaimed inductionHypothesis =>
      rw [layout] at listed ⊢
      apply List.mem_cons_of_mem
      cases claims : calls next callee with
      | true =>
          apply mem_layout_of_mem_pending
          exact List.mem_append_left _ (mem_calledBy_iff.mpr ⟨member, claims⟩)
      | false =>
          rcases List.mem_cons.mp listed with rfl | later
          · rw [claims] at called
            cases called
          · exact inductionHypothesis later (mem_uncalledBy_iff.mpr ⟨member, claims⟩)

/-- The layout lists all items when each unclaimed one is reached from a pending
one. -/
theorem layout_perm (once : (pending ++ unclaimed).Nodup)
    (closed : ∀ caller callee, calls caller callee = true → callee ∈ pending ++ unclaimed)
    (reached : ∀ helper ∈ unclaimed, ∃ root ∈ pending,
      Relation.ReflTransGen (fun caller callee => calls caller callee = true) root helper) :
    (layout calls pending unclaimed).Perm (pending ++ unclaimed) := by
  have followed : ∀ root ∈ pending, ∀ other,
      Relation.ReflTransGen (fun caller callee => calls caller callee = true) root other →
        other ∈ layout calls pending unclaimed := by
    intro root rootMember other path
    induction path with
    | refl => exact mem_layout_of_mem_pending rootMember
    | tail _ called inductionHypothesis =>
        rcases List.mem_append.mp (closed _ _ called) with isPending | isUnclaimed
        · exact mem_layout_of_mem_pending isPending
        · exact mem_layout_of_calls inductionHypothesis isUnclaimed called
  have all : ∀ other ∈ pending ++ unclaimed, other ∈ layout calls pending unclaimed := by
    intro other member
    rcases List.mem_append.mp member with isPending | isUnclaimed
    · exact mem_layout_of_mem_pending isPending
    · obtain ⟨root, rootMember, path⟩ := reached other isUnclaimed
      exact followed root rootMember other path
  obtain ⟨left, perm⟩ := exists_layout_append_perm calls pending unclaimed
  have parts := List.nodup_append.mp (perm.nodup_iff.mpr once)
  have none : left = [] := by
    apply List.eq_nil_iff_forall_not_mem.mpr
    intro other member
    have given := perm.mem_iff.mp (List.mem_append_right _ member)
    exact parts.2.2 other (all other given) other member rfl
  rw [none, List.append_nil] at perm
  exact perm

/-- The first pending items and what follows from them are listed before the
other pending items. -/
theorem exists_layout_append (calls : item → item → Bool) (first others unclaimed : List item) :
    ∃ listed rest, layout calls (first ++ others) unclaimed = listed ++ rest ∧
      (∀ other ∈ listed, other ∈ first ∨ other ∈ unclaimed) ∧
      ∀ other ∈ first, other ∈ listed := by
  induction first, unclaimed using layout.induct calls with
  | case1 unclaimed => exact ⟨[], _, rfl, by simp, by simp⟩
  | case2 next first unclaimed inductionHypothesis =>
      obtain ⟨listed, rest, split, fromParts, all⟩ := inductionHypothesis
      refine ⟨next :: listed, rest, ?_, ?_, ?_⟩
      · rw [List.cons_append, layout, ← List.append_assoc, split, List.cons_append]
      · intro other member
        rcases List.mem_cons.mp member with rfl | later
        · exact Or.inl List.mem_cons_self
        · rcases fromParts other later with isPending | isUnclaimed
          · rcases List.mem_append.mp isPending with isClaimed | isFirst
            · exact Or.inr (mem_calledBy_iff.mp isClaimed).1
            · exact Or.inl (List.mem_cons_of_mem next isFirst)
          · exact Or.inr (mem_uncalledBy_iff.mp isUnclaimed).1
      · intro other member
        rcases List.mem_cons.mp member with rfl | later
        · exact List.mem_cons_self
        · exact List.mem_cons_of_mem next (all other (List.mem_append_right _ later))

/-- Each helper that is listed stands below the first item that calls it. -/
theorem followsCaller_layout (apart : ∀ helper ∈ unclaimed, helper ∉ pending) {helper : item}
    (member : helper ∈ unclaimed) (listed : helper ∈ layout calls pending unclaimed) :
    FollowsCaller calls unclaimed (layout calls pending unclaimed) helper := by
  induction pending, unclaimed using layout.induct calls with
  | case1 unclaimed =>
      rw [layout] at listed
      cases listed
  | case2 next pending unclaimed inductionHypothesis =>
      rw [layout] at listed ⊢
      cases claims : calls next helper with
      | true =>
          -- All that is listed before the last item claimed now is claimed now or later.
          obtain ⟨cluster, rest, split, fromParts, all⟩ := exists_layout_append calls
            (calledBy calls next unclaimed) pending (uncalledBy calls next unclaimed)
          have inCluster := all helper (mem_calledBy_iff.mpr ⟨member, claims⟩)
          obtain ⟨between, after, rfl⟩ := List.append_of_mem inCluster
          refine ⟨[], next, between, after ++ rest, ?_, claims, by simp, ?_⟩
          · rw [split, List.append_assoc]
            rfl
          · intro other isBetween
            refine ⟨?_, by simp⟩
            rcases fromParts other (List.mem_append_left _ isBetween) with isClaimed | isUnclaimed
            · exact (mem_calledBy_iff.mp isClaimed).1
            · exact (mem_uncalledBy_iff.mp isUnclaimed).1
      | false =>
          have later : helper ∈ layout calls (calledBy calls next unclaimed ++ pending)
              (uncalledBy calls next unclaimed) := by
            rcases List.mem_cons.mp listed with rfl | later
            · exact absurd List.mem_cons_self (apart helper member)
            · exact later
          have stillApart : ∀ other ∈ uncalledBy calls next unclaimed,
              other ∉ calledBy calls next unclaimed ++ pending := by
            intro other isUnclaimed isPending
            obtain ⟨given, notCalled⟩ := mem_uncalledBy_iff.mp isUnclaimed
            rcases List.mem_append.mp isPending with isClaimed | wasPending
            · rw [(mem_calledBy_iff.mp isClaimed).2] at notCalled
              cases notCalled
            · exact apart other given (List.mem_cons_of_mem next wasPending)
          obtain ⟨before, caller, between, after, split, isCaller, notBefore, inBetween⟩ :=
            inductionHypothesis stillApart (mem_uncalledBy_iff.mpr ⟨member, claims⟩) later
          refine ⟨next :: before, caller, between, after, ?_, isCaller, ?_, ?_⟩
          · rw [split, List.cons_append]
          · intro earlier isEarlier
            rcases List.mem_cons.mp isEarlier with rfl | isBefore
            · exact claims
            · exact notBefore earlier isBefore
          · intro other isBetween
            obtain ⟨isUnclaimed, uncalled⟩ := inBetween other isBetween
            obtain ⟨given, notCalled⟩ := mem_uncalledBy_iff.mp isUnclaimed
            refine ⟨given, ?_⟩
            intro earlier isEarlier
            rcases List.mem_cons.mp isEarlier with rfl | isBefore
            · exact notCalled
            · exact uncalled earlier isBefore

end Layout
end StyleAudit
