import StyleAudit.Proofs.Expression.Unification
import StyleAudit.Proofs.Rule.BranchOrder

/-!
# Matched values in the order of branches

The order of the branches of an `else` leaves out the values of a clause that its own
pattern could match, and maps a branch to the first clause with another value that the
branch could match. Both are right about a value that is written out and matches the
pattern as far as the pattern spells it (`unifies_findsMatch`).
-/

namespace StyleAudit

variable {scope : ModuleScope} {target : Target} {site pattern body branch : Node}
  {value : Datum} {binding : Binding}

namespace WithElse

/-- The failures of a clause are not matched by its own pattern. -/
theorem unifies_of_mem_failureSites? {failures : List Node}
    (known : failureSites? scope target = some failures) (member : site ∈ failures) :
    target.pattern.unifies site = false := by
  rcases failureSites?_eq scope target with ⟨unknown, _⟩ | ⟨sites, filtered, _⟩
  · cases unknown.symm.trans known
  · cases filtered.symm.trans known
    simpa using (List.mem_filter.mp member).2

/-- A branch that can handle a clause is mapped to it or to an earlier one. -/
theorem exists_clauseIndex?_of_canHandle {targets : List Target} {index : Nat}
    (parts : branch.branchParts? = some (pattern, body)) (noCatchAll : pattern.isCatchAll = false)
    (isTarget : targets[index]? = some target) (handles : canHandle scope pattern target = true) :
    ∃ first ≤ index, clauseIndex? scope targets branch = some first := by
  have mapped : clauseIndex? scope targets branch =
      targets.findIdx? (canHandle scope pattern) := by
    rw [clauseIndex?, parts]
    exact if_neg (by rw [noCatchAll]; exact Bool.false_ne_true)
  obtain ⟨inside, rfl⟩ := List.getElem?_eq_some_iff.mp isTarget
  rw [mapped]
  cases found : targets.findIdx? (canHandle scope pattern) with
  | none =>
      have never := List.findIdx?_eq_none_iff.mp found _ (List.getElem_mem inside)
      cases never.symm.trans handles
  | some first =>
      obtain ⟨_, _, earlier⟩ := List.findIdx?_eq_some_iff_getElem.mp found
      exact ⟨first, Nat.not_lt.mp fun before => earlier index before handles, rfl⟩

end WithElse

/-- How a value that a clause can produce is found by the patterns that match it. -/
structure FindsMatch (site : Node) (value : Datum) : Prop where
  /-- A pattern that matches the value could match it exactly if the pattern spells it. -/
  exact : ∀ binding pattern, Matches binding pattern value →
    (pattern.unifies site = true ↔ pattern.Spells site)
  /-- The value is no failure of a clause whose pattern matches and spells it. -/
  succeeds : ∀ scope (target : Target) failures binding, Matches binding target.pattern value →
    target.pattern.Spells site → WithElse.failureSites? scope target = some failures →
      site ∉ failures
  /-- A branch whose pattern matches and spells a failure of a clause is mapped to that
  clause or an earlier one. -/
  handled : ∀ scope (targets : List Target) index target failures, targets[index]? = some target →
    WithElse.failureSites? scope target = some failures → site ∈ failures →
      ∀ branch pattern body binding, branch.branchParts? = some (pattern, body) →
        pattern.isCatchAll = false → Matches binding pattern value → pattern.Spells site →
          ∃ first ≤ index, WithElse.clauseIndex? scope targets branch = some first

/-- A value that is written out is found by the patterns that match and spell it. -/
theorem unifies_findsMatch (closed : site.IsClosed) (evaluates : Evaluates binding site value) :
    FindsMatch site value := by
  refine ⟨?_, ?_, ?_⟩
  · intro matched pattern holds
    exact Node.unifies_iff_spells closed evaluates holds
  · intro scope target failures matched holds spells known member
    have unifies := (Node.unifies_iff_spells closed evaluates holds).mpr spells
    cases unifies.symm.trans (WithElse.unifies_of_mem_failureSites? known member)
  · intro scope targets index target failures isTarget known member branch pattern body matched
      parts noCatchAll holds spells
    have unifies := (Node.unifies_iff_spells closed evaluates holds).mpr spells
    refine WithElse.exists_clauseIndex?_of_canHandle parts noCatchAll isTarget ?_
    rw [WithElse.canHandle, known]
    exact List.any_eq_true.mpr ⟨site, member, unifies⟩

/-! ## An error and the patterns that match it -/

def lateError : Node :=
  plainForm .tuple [] [constantForm .atom (.text "error"), constantForm .atom (.text "late")]

def lateValue : Datum :=
  .tuple [.scalar (.atom "error"), .scalar (.atom "late")]

/-- The tag and a variable for the reason, which is written next to it. -/
def namedReason : Node :=
  plainForm .tuple [] [constantForm .atom (.text "error"),
    plainForm .matchExpr [] [constantForm .atom (.text "late"), variableForm "x"]]

/-- One side asks for the tag, the other one for the reason. -/
def splitError : Node :=
  plainForm .matchExpr []
    [plainForm .tuple [] [constantForm .atom (.text "error"), variableForm "x"],
      plainForm .tuple [] [variableForm "y", constantForm .atom (.text "late")]]

theorem lateError_isClosed : lateError.IsClosed := by
  refine .sequence (Or.inl rfl) ?_
  intro child member
  rcases List.mem_cons.mp member with rfl | isLast
  · exact .scalar rfl
  · cases List.mem_singleton.mp isLast
    exact .scalar rfl

theorem evaluates_lateError (binding : Binding) : Evaluates binding lateError lateValue :=
  .tuple rfl (.cons (.scalar rfl) (.cons (.scalar rfl) .nil))

theorem unifies_findsMatch_named :
    lateError.IsClosed ∧ Evaluates (fun _ => lateValue) lateError lateValue ∧
      FindsMatch lateError lateValue ∧
      Matches (fun _ => .scalar (.atom "late")) namedReason lateValue ∧
      namedReason.unifies lateError = true := by
  have finds := unifies_findsMatch lateError_isClosed (evaluates_lateError fun _ => lateValue)
  have holds : Matches (fun _ => .scalar (.atom "late")) namedReason lateValue := by
    have reason : Matches (fun _ => .scalar (.atom "late")) (variableForm "x")
        (.scalar (.atom "late")) := .bound rfl (by decide)
    exact .tuple rfl (.cons (.scalar rfl) (.cons (.both rfl rfl (.scalar rfl) reason) .nil))
  refine ⟨lateError_isClosed, evaluates_lateError _, finds, holds, ?_⟩
  refine (finds.exact _ _ holds).mpr (.sequence (Or.inl rfl) (.cons ?_ (.cons ?_ .nil)))
  · exact .scalar rfl nofun rfl
  · exact .opens (by decide)

/-- The error matches a `=` between two tuples, and `true` as an atom matches `true` as
a literal, but neither is said to be possible. -/
theorem unifies_misses_match :
    (∃ binding, Matches binding splitError lateValue ∧ Evaluates binding lateError lateValue ∧
      splitError.unifies lateError = false) ∧
    ∃ binding value, Matches binding (constantForm .literal (.bool true)) value ∧
      Evaluates binding (constantForm .atom (.text "true")) value ∧
      (constantForm .literal (.bool true)).unifies (constantForm .atom (.text "true")) = false := by
  refine ⟨⟨fun name => if name = "x" then .scalar (.atom "late") else .scalar (.atom "error"), ?_,
    evaluates_lateError _, by decide⟩, ⟨fun _ => lateValue, .scalar (.atom "true"), ?_, ?_, ?_⟩⟩
  · exact .both rfl rfl
      (.tuple rfl (.cons (.scalar rfl) (.cons (matches_variableForm (by decide)) .nil)))
      (.tuple rfl (.cons (matches_variableForm (by decide)) (.cons (.scalar rfl) .nil)))
  · exact .scalar rfl
  · exact .scalar rfl
  · decide

end StyleAudit
