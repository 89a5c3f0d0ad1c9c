import StyleAudit.Audit.Catalog

/-!
# The dispatch table

The table of a catalog holds under each kind the enabled rules that look at it,
once each and in catalog order (`rulesFor_eq_filter`).
-/

namespace StyleAudit

theorem Rule.nodup_kinds (rule : Rule) : rule.kinds.Nodup := by
  cases rule <;> decide

namespace DispatchTable

variable {table : DispatchTable} {rule : Rule} {kind : Kind}

theorem rulesOf_cons (key : Kind) (rules : List Rule) (rest : DispatchTable) (kind : Kind) :
    rulesOf ((key, rules) :: rest) kind = if kind = key then rules else rulesOf rest kind := by
  by_cases here : kind = key
  · rw [rulesOf, List.lookup_cons, beq_iff_eq.mpr here, if_pos here]
    rfl
  · rw [rulesOf, List.lookup_cons, beq_false_of_ne here, if_neg here]
    rfl

/-- A rule put into the table stands behind the earlier ones of its kind and touches
no other kind. -/
theorem rulesOf_add (table : DispatchTable) (rule : Rule) (kind other : Kind) :
    (table.add rule kind).rulesOf other =
      table.rulesOf other ++ if other = kind then [rule] else [] := by
  induction table with
  | nil =>
      rw [add, rulesOf_cons]
      exact (List.nil_append _).symm
  | cons entry rest inductionHypothesis =>
      obtain ⟨key, rules⟩ := entry
      rw [add]
      by_cases isKey : key = kind
      · rw [if_pos isKey, rulesOf_cons, rulesOf_cons, ← isKey]
        by_cases here : other = key <;> simp [here]
      · rw [if_neg isKey, rulesOf_cons, rulesOf_cons, inductionHypothesis]
        by_cases here : other = key
        · simp [here, isKey]
        · simp [here]

/-- A rule is put once under each of its kinds. -/
theorem rulesOf_foldl_add {kinds : List Kind} (distinct : kinds.Nodup) :
    (kinds.foldl (fun table kind => table.add rule kind) table).rulesOf kind =
      table.rulesOf kind ++ if kind ∈ kinds then [rule] else [] := by
  induction kinds generalizing table with
  | nil => simp
  | cons first rest inductionHypothesis =>
      obtain ⟨notLater, restDistinct⟩ := List.nodup_cons.mp distinct
      rw [List.foldl_cons, inductionHypothesis restDistinct, rulesOf_add, List.append_assoc]
      by_cases here : kind = first
      · simp [here, notLater]
      · simp [here]

/-- Rules are put behind those that a table holds, in their order. -/
theorem rulesOf_foldl_rules (rules : List Rule) (table : DispatchTable) (kind : Kind) :
    (rules.foldl (fun table rule => rule.kinds.foldl (fun table kind => table.add rule kind)
      table) table).rulesOf kind = table.rulesOf kind ++ rules.filter (·.kinds.contains kind) := by
  induction rules generalizing table with
  | nil => simp
  | cons rule rest inductionHypothesis =>
      rw [List.foldl_cons, inductionHypothesis, rulesOf_foldl_add rule.nodup_kinds,
        List.append_assoc]
      by_cases looks : kind ∈ rule.kinds <;> simp [looks]

end DispatchTable

/-- The rules that the table holds for a kind are those that look at it. -/
theorem Catalog.rulesFor_eq_filter (catalog : Catalog) (kind : Kind) :
    catalog.rulesFor kind = catalog.rules.filter (·.kinds.contains kind) :=
  DispatchTable.rulesOf_foldl_rules catalog.rules [] kind

end StyleAudit
