import StyleAudit.Proofs.Audit.Independence
import StyleAudit.Proofs.Audit.Sitewise
import StyleAudit.Proofs.Expression.CallSite

/-!
# The records of one rule

`Catalog.recordsOf` is the share of one rule in what an evaluation says about the node at a
path. About a node of a module that can be indexed and that no broken module hides it is what
the rule finds there, if the rule is enabled and looks at nodes of that kind
(`Reaches.recordsOf_ofConfig`).
-/

namespace StyleAudit

/-- The settings of a project that gives none. -/
def Config.plain : Config :=
  ⟨[], .absent, .absent, .absent, .absent, .absent, .absent, .absent, .absent, .absent⟩

namespace Catalog

variable {isNested : String → Bool} {tree m n : Node} {scope : ModuleScope}
  {path way : NodePath} {config : Config} {rule : Rule}

/-- What is said by a rule about the node at a path. -/
def recordsOf (catalog : Catalog) (isNested : String → Bool) (tree : Node) (rule : Rule)
    (path : NodePath) : List Violation :=
  (catalog.recordsAt isNested tree path).filter (·.ruleId == rule.id)

/-- The evaluation of a tree gets to the module at a path: the modules around it can be
indexed, and no number that cannot be read stops the evaluation. -/
structure Reaches (isNested : String → Bool) (tree : Node) (path : NodePath) (m : Node) :
    Prop where
  reached : tree.at? path = some m
  liesOpen : LiesOpen isNested tree path
  readable : ∀ k, Enters isNested tree k →
    ∀ fault, ModuleScope.ofModule isNested k ≠ .error (.arity fault)

/-- A module whose evaluation ends is reached from itself. -/
theorem reaches_self {catalog : Catalog} {found : List Violation}
    (returned : catalog.evaluate isNested m = .ok found) : Reaches isNested m [] m := by
  refine ⟨rfl, ?_, evaluate_returns_iff.mp ⟨found, returned⟩⟩
  intro k way enclosed remains
  exact absurd (Node.mem_asModule_iff.mp enclosed).2.2 remains

/-- The records of a rule in an evaluation are those about each node in the order of the
tree. -/
theorem Reaches.exists_evaluate (reaches : Reaches isNested tree path m) (catalog : Catalog) :
    ∃ found, catalog.evaluate isNested tree = .ok found ∧ ∀ rule : Rule,
      found.filter (·.ruleId == rule.id) =
        tree.positions.flatMap (catalog.recordsOf isNested tree rule) := by
  refine ⟨_, evaluate_eq_flatMap reaches.readable, fun rule => ?_⟩
  rw [List.filter_flatMap]
  rfl

theorem recordsAt_of_isOwn (catalog : Catalog)
    (indexed : ModuleScope.ofModule isNested m = .ok scope) (own : m.IsOwn way n) :
    catalog.recordsAt isNested m way =
      catalog.check ⟨scope, CallGraph.ofScope scope⟩ ⟨way, n⟩ := by
  rw [recordsAt, own.own, List.findSome?_cons_of_isNone (by simp [broken?_of_scope indexed]),
    own.reached]
  exact recordsIn_of_scope _ indexed

theorem restricted_rules_ofConfig (config : Config) (rule : Rule) :
    ((ofConfig config).restricted (· == rule.id)).rules =
      if rule.id ∈ config.disabled then [] else [rule] := by
  have inCatalog : Rule.all.filter (·.id == rule.id) = [rule] := by cases rule <;> decide
  have exchanged : ((ofConfig config).restricted (· == rule.id)).rules =
      (Rule.all.filter (·.id == rule.id)).filter fun other =>
        !config.disabled.contains other.id := by
    rw [restricted, ofConfig, List.filter_filter, List.filter_filter]
    exact List.filter_congr fun other _ => Bool.and_comm _ _
  rw [exchanged, inCatalog, List.filter_singleton]
  by_cases isDisabled : rule.id ∈ config.disabled <;> simp [isDisabled]

/-- About a node of a module says a rule what it finds there. -/
theorem Reaches.recordsOf_ofConfig (reaches : Reaches isNested tree path m)
    (indexed : ModuleScope.ofModule isNested m = .ok scope) (own : m.IsOwn way n) :
    (ofConfig config).recordsOf isNested tree rule (path ++ way) =
      if rule.id ∉ config.disabled ∧ n.kind ∈ rule.kinds then
        rule.check config.ruleSettings ⟨scope, CallGraph.ofScope scope⟩ ⟨way, n⟩
      else [] := by
  have isModule := (ofModule_eq_ok_iff.mp indexed).1
  have inModule : (ofConfig config).recordsAt isNested tree (path ++ way) =
      (ofConfig config).recordsAt isNested m way := by
    rw [← recordsBelow_none]
    exact recordsBelow_append reaches.reached isModule reaches.liesOpen
  -- The share of one rule is what a catalog of this rule alone would say.
  have ofRule : ((ofConfig config).restricted (· == rule.id)).check
        ⟨scope, CallGraph.ofScope scope⟩ ⟨way, n⟩ =
      ((ofConfig config).check ⟨scope, CallGraph.ofScope scope⟩ ⟨way, n⟩).filter
        (·.ruleId == rule.id) :=
    check_restricted _ _ _
  rw [recordsOf, inModule, recordsAt_of_isOwn _ indexed own, ← ofRule, check, rulesFor_eq_filter,
    restricted_rules_ofConfig]
  by_cases isDisabled : rule.id ∈ config.disabled
  · rw [if_pos isDisabled, if_neg fun both => both.1 isDisabled]
    rfl
  · rw [if_neg isDisabled]
    by_cases looksAt : n.kind ∈ rule.kinds
    · rw [if_pos ⟨isDisabled, looksAt⟩, List.filter_cons_of_pos (by simpa using looksAt),
        List.filter_nil, List.flatMap_singleton]
      rfl
    · rw [if_neg fun both => looksAt both.2, List.filter_cons_of_neg (by simpa using looksAt)]
      rfl

end Catalog
end StyleAudit
