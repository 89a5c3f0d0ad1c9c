import Mathlib.Data.List.Pairwise
import StyleAudit.Proofs.Text.Order

/-!
# Texts in order, each once

`sortedDistinct` lists the texts that it is given in strict order. A list that
is in strict order is determined by its members (`sortedDistinct_eq`).
-/

namespace StyleAudit.Text

section Duplicates

variable {item : Type} [BEq item]

theorem eraseDups_sublist (items : List item) : items.eraseDups.Sublist items := by
  cases items with
  | nil => simp
  | cons first rest =>
      rw [List.eraseDups_cons]
      exact ((eraseDups_sublist _).trans List.filter_sublist).cons_cons first
termination_by items.length
decreasing_by exact Nat.lt_succ_of_le (List.length_filter_le _ _)

/-- No item is left twice. -/
theorem nodup_eraseDups [LawfulBEq item] (items : List item) : items.eraseDups.Nodup := by
  cases items with
  | nil => simp
  | cons first rest =>
      rw [List.eraseDups_cons, List.nodup_cons]
      refine ⟨?_, nodup_eraseDups _⟩
      simp [List.mem_eraseDups]
termination_by items.length
decreasing_by exact Nat.lt_succ_of_le (List.length_filter_le _ _)

end Duplicates

variable {texts : List String}

theorem mem_sortedDistinct {text : String} : text ∈ sortedDistinct texts ↔ text ∈ texts := by
  rw [sortedDistinct, List.mem_eraseDups, List.mem_mergeSort]

theorem pairwise_sortedDistinct (texts : List String) :
    (sortedDistinct texts).Pairwise fun a b => atMost b a = false := by
  have sorted : (texts.mergeSort atMost).Pairwise fun a b => atMost a b = true :=
    List.pairwise_mergeSort atMost_trans atMost_total texts
  have distinct := nodup_eraseDups (texts.mergeSort atMost)
  apply ((sorted.sublist (eraseDups_sublist _)).and distinct).imp
  rintro a b ⟨before, different⟩
  rw [← Bool.not_eq_true]
  exact fun after => different (atMost_antisymm before after)

theorem nodup_of_pairwise {ordered : List String}
    (isOrdered : ordered.Pairwise fun a b => atMost b a = false) : ordered.Nodup := by
  refine isOrdered.imp ?_
  rintro a b before rfl
  rw [atMost_refl] at before
  cases before

theorem nodup_sortedDistinct (texts : List String) : (sortedDistinct texts).Nodup :=
  nodup_of_pairwise (pairwise_sortedDistinct texts)

/-- Texts in strict order are the distinct ones among any that have the same
members. -/
theorem sortedDistinct_eq {ordered : List String}
    (isOrdered : ordered.Pairwise fun a b => atMost b a = false)
    (same : ∀ text, text ∈ texts ↔ text ∈ ordered) : sortedDistinct texts = ordered := by
  have sameUpToOrder : (sortedDistinct texts).Perm ordered := by
    rw [List.perm_ext_iff_of_nodup (nodup_sortedDistinct texts) (nodup_of_pairwise isOrdered)]
    intro text
    rw [mem_sortedDistinct, same]
  refine sameUpToOrder.eq_of_pairwise ?_ (pairwise_sortedDistinct texts) isOrdered
  intro a b _ _ before after
  have either := atMost_total a b
  rw [before, after] at either
  cases either

end StyleAudit.Text
