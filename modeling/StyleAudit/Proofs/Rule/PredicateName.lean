import StyleAudit.Proofs.Expression.Truth
import StyleAudit.Proofs.Module.FunctionIndex
import StyleAudit.Rule.Naming

/-!
# Functions that return truth values

The rule about names of predicates demands their mark of a function when every
expression that it can return is known to be true or false. As the operands of logical
operators are not looked at, a function that returns other values can be asked for the
mark too (`joinedFunction_asksForMark`).
-/

namespace StyleAudit

namespace Naming

variable {settings : RuleSettings} {group : FunctionGroup}

/-- The rule demands the mark of predicates for what the function returns. -/
def AsksForMark (settings : RuleSettings) (group : FunctionGroup) : Prop :=
  s!"it returns a boolean, so end the name with `{settings.predicateMark}`" ∈
    predicateProblems settings group.key.name (returnsBoolean group)

theorem AsksForMark.returnsBoolean (asks : AsksForMark settings group) :
    returnsBoolean group = true := by
  rw [AsksForMark, predicateProblems, List.mem_append] at asks
  rcases asks with reserved | unmarked
  · split at reserved
    · have sameStart := congrArg (·.toList.head?) (List.mem_singleton.mp reserved)
      simp only [String.toList_append] at sameStart
      cases sameStart
    · cases reserved
  · split at unmarked
    · rename_i holds
      exact (Bool.and_eq_true_iff.mp holds).2
    · cases unmarked

/-- Every return site of a function that is asked for the mark counts as a truth value. -/
theorem AsksForMark.isBooleanValued (asks : AsksForMark settings group) {site : Node}
    (member : site ∈ group.bodies.flatMap (·.terminals)) : site.isBooleanValued = true := by
  have returns := asks.returnsBoolean
  rw [Naming.returnsBoolean, Bool.and_eq_true] at returns
  exact List.all_eq_true.mp returns.2 site member

end Naming

/-- An expression that is known to be true or false has such a value as far as the
operands that it returns do, and the mark of predicates is demanded of a function when
all that it returns are such expressions. -/
theorem isBooleanValued_truthWhen (compare : Comparison) :
    (∀ n : Node, n.isBooleanValued = true → TruthWhen compare n) ∧
      ∀ settings group, Naming.AsksForMark settings group →
        ∀ site ∈ group.bodies.flatMap (·.terminals),
          site.isBooleanValued = true ∧ TruthWhen compare site := by
  refine ⟨fun n known => truthWhen_of_isBooleanValued compare known, ?_⟩
  intro settings group asks site member
  have known := asks.isBooleanValued member
  exact ⟨known, truthWhen_of_isBooleanValued compare known⟩

/-! ## Two conditions -/

/-- Comparisons of integers, of an integer with those of a list, and of texts. -/
def plainComparison : Comparison
  | "in", .scalar (.int value), .list items => some (items.any (isInteger value))
  | "not in", .scalar (.int value), .list items => some (!items.any (isInteger value))
  | "=~", .scalar (.text whole), .scalar (.text part) =>
    some (whole.toList.tails.any part.toList.isPrefixOf)
  | operator, .scalar (.int first), .scalar (.int second) =>
    match operator with
    | "==" | "===" => some (decide (first = second))
    | "!=" | "!==" => some (decide (first ≠ second))
    | "<" => some (decide (first < second))
    | ">" => some (decide (second < first))
    | "<=" => some (decide (first ≤ second))
    | ">=" => some (decide (second ≤ first))
    | _ => none
  | _, _, _ => none
where
  /-- The value is that integer. -/
  isInteger (value : Int) : Datum → Bool
    | .scalar (.int other) => value == other
    | _ => false

theorem plainComparison_bothWays : plainComparison.BothWays := by
  have sampled : ∀ operator ∈ comparisonOperators, ∀ holds,
      ∃ operands ∈ [(Datum.scalar (.int 0), Datum.scalar (.int 0)),
          (.scalar (.int 0), .scalar (.int 1)), (.scalar (.int 1), .scalar (.int 0)),
          (.scalar (.int 0), .list [.scalar (.int 0)]), (.scalar (.int 0), .list []),
          (.scalar (.text "a"), .scalar (.text "a")), (.scalar (.text "a"), .scalar (.text "b"))],
        plainComparison operator operands.1 operands.2 = some holds := by
    decide
  intro operator listed holds
  obtain ⟨⟨first, second⟩, _, result⟩ := sampled operator listed holds
  exact ⟨first, second, result⟩

def operatorForm (kind : Kind) (operator : String) (operands : List Node) : Node :=
  ⟨kind, lineSpan 3, [("operator", .one (.text operator))], operands⟩

def operandForm (name : String) : Node :=
  ⟨.var, lineSpan 3, [("name", .one (.text name))], []⟩

/-- The second value, or the first one where that is false or nil. -/
def joinedForm : Node :=
  operatorForm .binaryOp "&&" [operandForm "a", operandForm "b"]

/-- A negation or a comparison. -/
def settledForm : Node :=
  operatorForm .binaryOp "||" [operatorForm .unaryOp "!" [operandForm "a"],
    operatorForm .binaryOp "==" [operandForm "a", operandForm "b"]]

def predicateSettings : RuleSettings :=
  ⟨[], [], "is_", "?", []⟩

theorem joinedForm_concludes (compare : Comparison) :
    ∃ binding, Concludes compare binding joinedForm (.scalar (.int 1)) := by
  have single : ∀ name, name ≠ "_" → Concludes compare (fun _ => .scalar (.int 1))
      (operandForm name) (.scalar (.int 1)) := fun name used => .bound rfl used
  exact ⟨_, .continues rfl rfl (single "a" (by decide)) nofun rfl (single "b" (by decide))⟩

theorem isBooleanValued_truthWhen_settled :
    (settledForm.isBooleanValued = true ∧ settledForm.returnsTruth = true ∧
      TruthWhen plainComparison settledForm) ∧
    (joinedForm.isBooleanValued = true ∧ joinedForm.returnsTruth = false ∧
      ∃ binding value, Concludes plainComparison binding joinedForm value ∧ ¬value.IsBoolean) ∧
    ∃ scope group, ModuleScope.ofModule (fun _ => false)
        (moduleOf [functionForm 2 "f" "public" [] [settledForm]]) = .ok scope ∧
      scope.functions = [group] ∧ Naming.AsksForMark predicateSettings group ∧
      ∀ site ∈ group.bodies.flatMap (·.terminals), site.isBooleanValued = true ∧
        TruthWhen plainComparison site := by
  obtain ⟨each, asked⟩ := isBooleanValued_truthWhen plainComparison
  have known : joinedForm.isBooleanValued = true := by decide
  refine ⟨⟨by decide, by decide, each _ (by decide)⟩, ⟨known, by decide, ?_⟩, ?_⟩
  · have single : ∀ name, name ≠ "_" → (operandForm name).IsOpen :=
      fun name used => .single rfl used
    have isOpen : joinedForm.IsOpen :=
      .joins rfl rfl (single "a" (by decide)) (single "b" (by decide))
    by_contra never
    have always : ∀ binding value, Concludes plainComparison binding joinedForm value →
        value.IsBoolean := by
      intro binding value concludes
      by_contra other
      exact never ⟨binding, value, concludes, other⟩
    have returns := ((each _ known).exact isOpen (by decide) plainComparison_bothWays).mp always
    cases returns
  · have asks : Naming.AsksForMark predicateSettings
        (FunctionGroup.ofClause 0 ⟨0, functionForm 2 "f" "public" [] [settledForm]⟩) := by
      unfold Naming.AsksForMark
      decide
    exact ⟨_, _, rfl, rfl, asks, asked _ _ asks⟩

/-- The rule asks for the mark of a function that can return a number. -/
theorem joinedFunction_asksForMark : joinedForm.isBooleanValued = true ∧
    (∃ binding, Concludes plainComparison binding joinedForm (.scalar (.int 1))) ∧
    ¬(Datum.scalar (.int 1)).IsBoolean ∧
    ∃ scope, ModuleScope.ofModule (fun _ => false)
        (moduleOf [functionForm 2 "f" "public" [] [joinedForm]]) = .ok scope ∧
      (Naming.predicate predicateSettings scope
          ⟨[0], functionForm 2 "f" "public" [] [joinedForm]⟩).map (·.message) =
        ["f/0: it returns a boolean, so end the name with `?`."] := by
  refine ⟨by decide, joinedForm_concludes _, ?_, ⟨_, rfl, by decide⟩⟩
  rintro ⟨_ | _, impossible⟩ <;> cases impossible

end StyleAudit
