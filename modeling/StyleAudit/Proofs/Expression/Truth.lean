import Mathlib.Data.List.Nodup
import StyleAudit.Expression.Result
import StyleAudit.Proofs.Expression.Meaning

/-!
# Truth values of logical expressions

`Node.isBooleanValued` looks at the outermost operator. A comparison or a negation is
true or false, but a logical operator returns one of its operands: `and` and `or` the
right one after a truth value, `&&` and `||` the one that decides. `Node.returned` are
the operands whose value can become that of an expression, and an expression is true or
false as far as these are (`truthWhen_of_isBooleanValued`). Where its variables are
bound independently, it is not otherwise.
-/

namespace StyleAudit

/-! ## Values and operators -/

namespace Datum

def truth (holds : Bool) : Datum :=
  .scalar (.ofLiteral (.bool holds))

def IsBoolean (value : Datum) : Prop :=
  ∃ holds, value = truth holds

/-- All values but false and nil count as true. -/
def isTruthy : Datum → Bool
  | .scalar (.atom name) => name != "false" && name != "nil"
  | _ => true

@[simp]
theorem isTruthy_truth (holds : Bool) : (truth holds).isTruthy = holds := by
  cases holds <;> decide

/-- Some values count as true or as false without being so. -/
theorem exists_not_isBoolean (truthy : Bool) :
    ∃ value : Datum, ¬value.IsBoolean ∧ value.isTruthy = truthy := by
  cases truthy with
  | true =>
      refine ⟨.scalar (.int 1), ?_, rfl⟩
      rintro ⟨_ | _, impossible⟩ <;> cases impossible
  | false =>
      refine ⟨.scalar (.atom "nil"), ?_, rfl⟩
      rintro ⟨_ | _, impossible⟩ <;> simp [truth, Scalar.ofLiteral] at impossible

end Datum

/-- What comparing two values under an operator comes to. Some values cannot be
compared. -/
abbrev Comparison := String → Datum → Datum → Option Bool

/-- How an operator joins two operands: a left operand that counts as true or false like
this is the result, and others are followed by the right operand. A strict operator
allows truth values on its left only. -/
structure Connective where
  stopsAt : Bool
  isStrict : Bool

def Connective.ofOperator? : String → Option Connective
  | "and" => some ⟨false, true⟩
  | "or" => some ⟨true, true⟩
  | "&&" => some ⟨false, false⟩
  | "||" => some ⟨true, false⟩
  | _ => none

/-- Whether a negation allows truth values only. -/
def negationIsStrict? : String → Option Bool
  | "not" => some true
  | "!" => some false
  | _ => none

namespace Node

def operator? (n : Node) : Option String :=
  (n.attr "operator").text?

def connective? (n : Node) : Option Connective :=
  if n.kind = .binaryOp then n.operator?.bind Connective.ofOperator? else none

def negation? (n : Node) : Option Bool :=
  if n.kind = .unaryOp then n.operator?.bind negationIsStrict? else none

/-- The operator of a comparison. -/
def comparison? (n : Node) : Option String :=
  if n.kind = .binaryOp then n.operator?.filter comparisonOperators.contains else none

end Node

/-- The expression has the value under the binding. -/
inductive Concludes (compare : Comparison) (binding : Binding) : Node → Datum → Prop
  | bound {n : Node} {name : String} (named : n.varName? = some name) (used : name ≠ "_") :
      Concludes compare binding n (binding name)
  | scalar {n : Node} {scalar : Scalar} (stands : n.scalar? = some scalar) :
      Concludes compare binding n (.scalar scalar)
  | compares {n left right : Node} {operator : String} {first second : Datum} {holds : Bool}
      (isComparison : n.comparison? = some operator) (sides : n.children = [left, right])
      (onLeft : Concludes compare binding left first)
      (onRight : Concludes compare binding right second)
      (result : compare operator first second = some holds) :
      Concludes compare binding n (.truth holds)
  | stops {n left right : Node} {connective : Connective} {value : Datum}
      (joins : n.connective? = some connective) (sides : n.children = [left, right])
      (onLeft : Concludes compare binding left value)
      (allowed : connective.isStrict = true → value.IsBoolean)
      (decides : value.isTruthy = connective.stopsAt) : Concludes compare binding n value
  | continues {n left right : Node} {connective : Connective} {first value : Datum}
      (joins : n.connective? = some connective) (sides : n.children = [left, right])
      (onLeft : Concludes compare binding left first)
      (allowed : connective.isStrict = true → first.IsBoolean)
      (passes : first.isTruthy = !connective.stopsAt)
      (onRight : Concludes compare binding right value) : Concludes compare binding n value
  | negates {n operand : Node} {isStrict : Bool} {first : Datum}
      (negation : n.negation? = some isStrict) (only : n.children = [operand])
      (inside : Concludes compare binding operand first)
      (allowed : isStrict = true → first.IsBoolean) :
      Concludes compare binding n (.truth !first.isTruthy)

variable {compare : Comparison} {binding : Binding} {n m : Node} {value : Datum}

namespace Node

theorem kind_of_connective? {connective : Connective} (joins : n.connective? = some connective) :
    n.kind = .binaryOp := by
  by_contra other
  rw [connective?, if_neg other] at joins
  cases joins

theorem kind_of_comparison? {operator : String} (isComparison : n.comparison? = some operator) :
    n.kind = .binaryOp := by
  by_contra other
  rw [comparison?, if_neg other] at isComparison
  cases isComparison

theorem kind_of_negation? {isStrict : Bool} (negation : n.negation? = some isStrict) :
    n.kind = .unaryOp := by
  by_contra other
  rw [negation?, if_neg other] at negation
  cases negation

theorem comparison?_eq_some_iff {operator : String} : n.comparison? = some operator ↔
    n.kind = .binaryOp ∧ n.operator? = some operator ∧
      comparisonOperators.contains operator = true := by
  rw [comparison?]
  by_cases isBinary : n.kind = .binaryOp
  · rw [if_pos isBinary, Option.filter_eq_some_iff, and_iff_right isBinary]
  · rw [if_neg isBinary]
    constructor
    · intro impossible
      cases impossible
    · rintro ⟨binary, _⟩
      exact absurd binary isBinary

/-- No operator both compares and joins. -/
theorem connective?_of_comparison? {operator : String}
    (isComparison : n.comparison? = some operator) : n.connective? = none := by
  obtain ⟨isBinary, isOperator, compares⟩ := comparison?_eq_some_iff.mp isComparison
  rw [connective?, if_pos isBinary, isOperator, Option.bind_some, Connective.ofOperator?.eq_def]
  split
  · exact absurd compares (by decide)
  · exact absurd compares (by decide)
  · exact absurd compares (by decide)
  · exact absurd compares (by decide)
  · rfl

theorem isBooleanValued_of_comparison? {operator : String}
    (isComparison : n.comparison? = some operator) : n.isBooleanValued = true := by
  obtain ⟨isBinary, isOperator, compares⟩ := comparison?_eq_some_iff.mp isComparison
  rw [operator?] at isOperator
  rw [isBooleanValued, isBinary]
  simp only [Attribute.isTextIn, isOperator, Option.any_some, List.contains_eq_mem] at compares ⊢
  simp_all

/-- A negation counts as a truth value, whatever it negates. -/
theorem isBooleanValued_of_negation? {isStrict : Bool} (negation : n.negation? = some isStrict) :
    n.isBooleanValued = true := by
  have isUnary := kind_of_negation? negation
  rw [negation?, if_pos isUnary] at negation
  obtain ⟨operator, isOperator, strict⟩ := Option.bind_eq_some_iff.mp negation
  rw [operator?] at isOperator
  rw [isBooleanValued, isUnary]
  simp only [Attribute.isTextIn, isOperator, Option.any_some]
  rw [negationIsStrict?.eq_def] at strict
  split at strict
  · rfl
  · rfl
  · cases strict

/-- An expression that is known to be true or false and joins no operands is so. -/
theorem isBoolean_of_isBooleanValued (concludes : Concludes compare binding n value)
    (known : n.isBooleanValued = true) (plain : n.connective? = none) : value.IsBoolean := by
  cases concludes with
  | bound named =>
      rw [isBooleanValued, kind_of_varName? named] at known
      cases known
  | scalar stands =>
      obtain ⟨literal, found, ⟨isAtom, name, rfl, rfl⟩ | ⟨isLiteral, rfl⟩⟩ :=
        scalar?_eq_some_iff.mp stands
      · have isName : name = "true" ∨ name = "false" := by
          simpa [isBooleanValued, isAtom, attr, found, Attribute.isTextIn, Attribute.text?]
            using known
        rcases isName with rfl | rfl
        · exact ⟨true, rfl⟩
        · exact ⟨false, rfl⟩
      · simp only [isBooleanValued, isLiteral, attr, found, Option.getD_some] at known
        cases literal with
        | bool holds => exact ⟨holds, rfl⟩
        | _ => cases known
  | compares => exact ⟨_, rfl⟩
  | stops joins => cases plain.symm.trans joins
  | continues joins => cases plain.symm.trans joins
  | negates => exact ⟨_, rfl⟩

/-! ## Operands whose value is returned -/

/-- The operands whose value the expression can have when it counts as true or as false.
A strict operator returns its left operand too, which is a truth value then. -/
def returned (truthy : Bool) : Node → List Node
  | ⟨kind, span, attributes, [left, right]⟩ =>
    match connective? ⟨kind, span, attributes, [left, right]⟩ with
    | none => [⟨kind, span, attributes, [left, right]⟩]
    | some connective =>
      (if connective.isStrict = false ∧ connective.stopsAt = truthy then returned truthy left
        else []) ++ returned truthy right
  | n => [n]
  termination_by structural n => n

/-- Every operand that can be returned is known to be true or false, or is a constant
that counts as the other one. -/
def returnsTruth (n : Node) : Bool :=
  [true, false].all fun truthy => (n.returned truthy).all fun m =>
    m.isBooleanValued || m.scalar?.any fun scalar => (Datum.scalar scalar).isTruthy != truthy

theorem returned_of_connective? {connective : Connective} {left right : Node}
    (joins : n.connective? = some connective) (sides : n.children = [left, right])
    (truthy : Bool) : n.returned truthy =
      (if connective.isStrict = false ∧ connective.stopsAt = truthy then left.returned truthy
        else []) ++ right.returned truthy := by
  obtain ⟨kind, span, attributes, children⟩ := n
  cases sides
  rw [returned]
  simp only [joins]

theorem returned_of_plain (plain : n.connective? = none) (truthy : Bool) :
    n.returned truthy = [n] := by
  obtain ⟨kind, span, attributes, children⟩ := n
  match children with
  | [left, right] =>
      rw [returned]
      simp only [plain]
  | [] | [_] | _ :: _ :: _ :: _ => rfl

/-- A joined expression with a value has both operands. -/
theorem exists_sides_of_concludes {connective : Connective}
    (concludes : Concludes compare binding n value) (joins : n.connective? = some connective) :
    ∃ left right, n.children = [left, right] := by
  have isBinary := kind_of_connective? joins
  cases concludes with
  | bound named => cases isBinary.symm.trans (kind_of_varName? named)
  | scalar stands =>
      rcases kind_of_scalar? stands with other | other <;> cases isBinary.symm.trans other
  | compares _ sides => exact ⟨_, _, sides⟩
  | stops _ sides => exact ⟨_, _, sides⟩
  | continues _ sides => exact ⟨_, _, sides⟩
  | negates negation => cases isBinary.symm.trans (kind_of_negation? negation)

/-- The operands that are returned join no operands themselves. -/
theorem connective?_of_mem_returned {truthy : Bool} (member : m ∈ n.returned truthy)
    (concludes : Concludes compare binding m value) : m.connective? = none := by
  induction n using childInduction with
  | step n inductionHypothesis =>
      cases joins : n.connective? with
      | none =>
          rw [returned_of_plain joins, List.mem_singleton] at member
          rw [member, joins]
      | some connective =>
          by_cases binary : ∃ left right, n.children = [left, right]
          · obtain ⟨left, right, sides⟩ := binary
            rw [returned_of_connective? joins sides, List.mem_append] at member
            rcases member with onLeft | onRight
            · by_cases decides : connective.isStrict = false ∧ connective.stopsAt = truthy
              · rw [if_pos decides] at onLeft
                exact inductionHypothesis left (by simp [sides]) onLeft
              · rw [if_neg decides] at onLeft
                cases onLeft
            · exact inductionHypothesis right (by simp [sides]) onRight
          · have itself : n.returned truthy = [n] := by
              obtain ⟨kind, span, attributes, children⟩ := n
              match children with
              | [left, right] => exact absurd ⟨left, right, rfl⟩ binary
              | [] | [_] | _ :: _ :: _ :: _ => rfl
            rw [itself, List.mem_singleton] at member
            subst member
            exact absurd (exists_sides_of_concludes concludes joins) binary

end Node

/-! ## The value of an expression -/

/-- A value that is not true or false is that of an operand that can be returned. -/
theorem Concludes.isBoolean_or_returned (concludes : Concludes compare binding n value) :
    value.IsBoolean ∨ ∃ m ∈ n.returned value.isTruthy, Concludes compare binding m value := by
  induction concludes with
  | @bound n name named used =>
      have plain : n.connective? = none := if_neg (by rw [Node.kind_of_varName? named]; decide)
      rw [Node.returned_of_plain plain]
      exact Or.inr ⟨n, List.mem_singleton_self n, .bound named used⟩
  | @scalar n scalar stands =>
      have plain : n.connective? = none := by
        refine if_neg ?_
        rcases Node.kind_of_scalar? stands with other | other <;> rw [other] <;> decide
      rw [Node.returned_of_plain plain]
      exact Or.inr ⟨n, List.mem_singleton_self n, .scalar stands⟩
  | compares => exact Or.inl ⟨_, rfl⟩
  | @stops n left right connective value joins sides onLeft allowed decides inductionHypothesis =>
      rw [Node.returned_of_connective? joins sides]
      cases strict : connective.isStrict with
      | true => exact Or.inl (allowed strict)
      | false =>
          rw [if_pos ⟨rfl, decides.symm⟩]
          refine inductionHypothesis.imp_right ?_
          rintro ⟨m, member, here⟩
          exact ⟨m, List.mem_append_left _ member, here⟩
  | continues joins sides _ _ _ _ _ inductionHypothesis =>
      rw [Node.returned_of_connective? joins sides]
      refine inductionHypothesis.imp_right ?_
      rintro ⟨m, member, here⟩
      exact ⟨m, List.mem_append_right _ member, here⟩
  | negates => exact Or.inl ⟨_, rfl⟩

theorem Concludes.exists_unknown (concludes : Concludes compare binding n value)
    (other : ¬value.IsBoolean) : ∃ m ∈ n.returned value.isTruthy, m.isBooleanValued = false ∧
      Concludes compare binding m value := by
  rcases concludes.isBoolean_or_returned with isBoolean | ⟨m, member, here⟩
  · exact absurd isBoolean other
  · refine ⟨m, member, ?_, here⟩
    by_contra known
    rw [Bool.not_eq_false] at known
    exact other (Node.isBoolean_of_isBooleanValued here known
      (Node.connective?_of_mem_returned member here))

/-- What is written as a scalar concludes to this scalar only. -/
theorem Concludes.eq_of_scalar? {scalar : Scalar} (concludes : Concludes compare binding n value)
    (stands : n.scalar? = some scalar) : value = .scalar scalar := by
  have isConstant := Node.kind_of_scalar? stands
  have noBinary : n.kind ≠ .binaryOp := by
    rcases isConstant with isKind | isKind <;> rw [isKind] <;> decide
  cases concludes with
  | bound named =>
      have isVar := Node.kind_of_varName? named
      rcases isConstant with isKind | isKind <;> cases isVar.symm.trans isKind
  | scalar alsoStands =>
      cases stands.symm.trans alsoStands
      rfl
  | compares isComparison => exact absurd (Node.kind_of_comparison? isComparison) noBinary
  | stops joins => exact absurd (Node.kind_of_connective? joins) noBinary
  | continues joins => exact absurd (Node.kind_of_connective? joins) noBinary
  | negates negation =>
      have isUnary := Node.kind_of_negation? negation
      rcases isConstant with isKind | isKind <;> cases isUnary.symm.trans isKind

theorem Node.mem_returned_of_returnsTruth (returns : n.returnsTruth = true) {truthy : Bool}
    (member : m ∈ n.returned truthy) : m.isBooleanValued = true ∨
      ∃ scalar, m.scalar? = some scalar ∧ (Datum.scalar scalar).isTruthy ≠ truthy := by
  rw [returnsTruth, List.all_eq_true] at returns
  have each := List.all_eq_true.mp (returns truthy (by cases truthy <;> simp)) m member
  rw [Bool.or_eq_true, Option.any_eq_true] at each
  refine each.imp_right ?_
  rintro ⟨scalar, stands, differs⟩
  exact ⟨scalar, stands, bne_iff_ne.mp differs⟩

/-- An expression that returns only operands known to be true or false is so itself. -/
theorem Concludes.isBoolean (concludes : Concludes compare binding n value)
    (returns : n.returnsTruth = true) : value.IsBoolean := by
  by_contra other
  obtain ⟨m, member, unknown, here⟩ := concludes.exists_unknown other
  rcases Node.mem_returned_of_returnsTruth returns member with known | ⟨scalar, stands, differs⟩
  · cases unknown.symm.trans known
  · rw [here.eq_of_scalar? stands] at differs
    exact differs rfl

/-! ## Variables that are bound independently -/

/-- The value of an expression depends on the bindings of its variables only. -/
theorem Concludes.of_agree {other : Binding} (concludes : Concludes compare binding n value)
    (agree : ∀ name ∈ n.names, binding name = other name) : Concludes compare other n value := by
  have below : ∀ {n child : Node}, child ∈ n.children →
      (∀ name ∈ n.names, binding name = other name) →
      ∀ name ∈ child.names, binding name = other name := by
    intro n child member agree name isName
    exact agree name (Node.names_subset (Node.mem_preorder_of_mem_children member) isName)
  induction concludes with
  | bound named used =>
      rw [agree _ (Node.mem_names_of_varName? named)]
      exact .bound named used
  | scalar stands => exact .scalar stands
  | compares isComparison sides _ _ result first second =>
      exact .compares isComparison sides (first (below (by simp [sides]) agree))
        (second (below (by simp [sides]) agree)) result
  | stops joins sides _ allowed decides first =>
      exact .stops joins sides (first (below (by simp [sides]) agree)) allowed decides
  | continues joins sides _ allowed passes _ first second =>
      exact .continues joins sides (first (below (by simp [sides]) agree)) allowed passes
        (second (below (by simp [sides]) agree))
  | negates negation only _ allowed first =>
      exact .negates negation only (first (below (by simp [only]) agree)) allowed

/-- Every comparison can come out both ways. -/
def Comparison.BothWays (compare : Comparison) : Prop :=
  ∀ operator ∈ comparisonOperators, ∀ holds, ∃ first second,
    compare operator first second = some holds

namespace Node

/-- The expression is made of variables and comparisons of variables by logical operators
and negations. -/
inductive IsOpen : Node → Prop
  | single {n : Node} {name : String} (named : n.varName? = some name) (used : name ≠ "_") :
      IsOpen n
  | compares {n left right : Node} {operator first second : String}
      (isComparison : n.comparison? = some operator) (sides : n.children = [left, right])
      (onLeft : left.varName? = some first) (firstUsed : first ≠ "_")
      (onRight : right.varName? = some second) (secondUsed : second ≠ "_") : IsOpen n
  | joins {n left right : Node} {connective : Connective}
      (joins : n.connective? = some connective) (sides : n.children = [left, right])
      (onLeft : IsOpen left) (onRight : IsOpen right) : IsOpen n
  | negates {n operand : Node} {isStrict : Bool} (negation : n.negation? = some isStrict)
      (only : n.children = [operand]) (inside : IsOpen operand) : IsOpen n

theorem names_of_sides {left right : Node} (noVar : n.kind ≠ .var)
    (sides : n.children = [left, right]) : n.names = left.names ++ right.names := by
  rw [names_eq, varName?, if_neg noVar, sides]
  simp

theorem names_of_only {operand : Node} (noVar : n.kind ≠ .var) (only : n.children = [operand]) :
    n.names = operand.names := by
  rw [names_eq, varName?, if_neg noVar, only]
  simp

/-- Two expressions without a common variable can be given their values at once. -/
theorem exists_binding_of_disjoint {left right : Node} {first second : Datum}
    (apart : left.names.Disjoint right.names)
    (onLeft : ∃ binding, Concludes compare binding left first)
    (onRight : ∃ binding, Concludes compare binding right second) :
    ∃ binding, Concludes compare binding left first ∧ Concludes compare binding right second := by
  obtain ⟨leftBinding, onLeft⟩ := onLeft
  obtain ⟨rightBinding, onRight⟩ := onRight
  refine ⟨fun name => if name ∈ left.names then leftBinding name else rightBinding name, ?_, ?_⟩
  · refine onLeft.of_agree fun name isName => ?_
    rw [if_pos isName]
  · refine onRight.of_agree fun name isName => ?_
    rw [if_neg fun alsoLeft => apart alsoLeft isName]

/-- An open expression over distinct variables can be true and can be false. -/
theorem IsOpen.exists_concludes_truth (isOpen : n.IsOpen) (distinct : n.names.Nodup)
    (bothWays : compare.BothWays) (holds : Bool) :
    ∃ binding, Concludes compare binding n (.truth holds) := by
  induction isOpen generalizing holds with
  | single named used => exact ⟨fun _ => .truth holds, .bound named used⟩
  | @compares n left right operator first second isComparison sides onLeft firstUsed onRight
      secondUsed =>
      have noVar : n.kind ≠ .var := by rw [kind_of_comparison? isComparison]; decide
      obtain ⟨_, _, compares⟩ := comparison?_eq_some_iff.mp isComparison
      obtain ⟨firstValue, secondValue, result⟩ :=
        bothWays operator (by simpa using compares) holds
      rw [names_of_sides noVar sides, List.nodup_append'] at distinct
      have valueOf : ∀ {v : Node} {name : String} (value : Datum), v.varName? = some name →
          name ≠ "_" → ∃ binding, Concludes compare binding v value := by
        intro v name value named used
        exact ⟨fun _ => value, .bound named used⟩
      obtain ⟨binding, first, second⟩ := exists_binding_of_disjoint distinct.2.2
        (valueOf firstValue onLeft firstUsed)
        (valueOf secondValue onRight secondUsed)
      exact ⟨binding, .compares isComparison sides first second result⟩
  | @joins n left right connective joins sides _ _ first second =>
      have noVar : n.kind ≠ .var := by rw [kind_of_connective? joins]; decide
      rw [names_of_sides noVar sides, List.nodup_append'] at distinct
      by_cases decides : holds = connective.stopsAt
      · obtain ⟨binding, onLeft⟩ := first distinct.1 holds
        exact ⟨binding, .stops joins sides onLeft (fun _ => ⟨holds, rfl⟩) (by simpa using decides)⟩
      · obtain ⟨binding, onLeft, onRight⟩ := exists_binding_of_disjoint distinct.2.2
          (first distinct.1 !connective.stopsAt) (second distinct.2.1 holds)
        exact ⟨binding, .continues joins sides onLeft (fun _ => ⟨_, rfl⟩) (by simp) onRight⟩
  | @negates n operand isStrict negation only _ inside =>
      have noVar : n.kind ≠ .var := by rw [kind_of_negation? negation]; decide
      rw [names_of_only noVar only] at distinct
      obtain ⟨binding, operandHolds⟩ := inside distinct !holds
      have negated := Concludes.negates negation only operandHolds fun _ => ⟨_, rfl⟩
      rw [Datum.isTruthy_truth, Bool.not_not] at negated
      exact ⟨binding, negated⟩

/-- The value of each operand that can be returned can be any other than true or false. -/
theorem IsOpen.exists_concludes_other (isOpen : n.IsOpen) (distinct : n.names.Nodup)
    (bothWays : compare.BothWays) {truthy : Bool} (member : m ∈ n.returned truthy)
    (unknown : m.isBooleanValued = false) :
    ∃ binding value, Concludes compare binding n value ∧ ¬value.IsBoolean ∧
      value.isTruthy = truthy := by
  have plainCase : ∀ {n : Node}, n.connective? = none → n.isBooleanValued = true →
      m ∉ n.returned truthy := by
    intro n plain known member
    rw [returned_of_plain plain, List.mem_singleton] at member
    rw [← member, unknown] at known
    cases known
  induction isOpen with
  | single named used =>
      obtain ⟨value, other, counts⟩ := Datum.exists_not_isBoolean truthy
      exact ⟨fun _ => value, value, .bound named used, other, counts⟩
  | compares isComparison =>
      exact absurd member (plainCase (connective?_of_comparison? isComparison)
        (isBooleanValued_of_comparison? isComparison))
  | @joins n left right connective joins sides onLeft onRight first second =>
      have noVar : n.kind ≠ .var := by rw [kind_of_connective? joins]; decide
      rw [names_of_sides noVar sides, List.nodup_append'] at distinct
      rw [returned_of_connective? joins sides, List.mem_append] at member
      rcases member with isLeft | isRight
      · by_cases decides : connective.isStrict = false ∧ connective.stopsAt = truthy
        · rw [if_pos decides] at isLeft
          obtain ⟨binding, value, concludes, other, counts⟩ := first distinct.1 isLeft
          refine ⟨binding, value, .stops joins sides concludes ?_ ?_, other, counts⟩
          · intro strict
            cases strict.symm.trans decides.1
          · rw [counts, decides.2]
        · rw [if_neg decides] at isLeft
          cases isLeft
      · obtain ⟨rightBinding, value, concludes, other, counts⟩ := second distinct.2.1 isRight
        obtain ⟨binding, leftPasses, rightConcludes⟩ := exists_binding_of_disjoint distinct.2.2
          (onLeft.exists_concludes_truth distinct.1 bothWays !connective.stopsAt)
          ⟨rightBinding, concludes⟩
        exact ⟨binding, value, .continues joins sides leftPasses (fun _ => ⟨_, rfl⟩) (by simp)
          rightConcludes, other, counts⟩
  | negates negation =>
      refine absurd member (plainCase (if_neg ?_) (isBooleanValued_of_negation? negation))
      rw [kind_of_negation? negation]
      decide

end Node

/-! ## Expressions known to be true or false -/

/-- When an expression that looks like a truth value has one. -/
structure TruthWhen (compare : Comparison) (n : Node) : Prop where
  /-- It does if it joins no operands, -/
  plain : n.connective? = none → n.returnsTruth = true
  /-- or if it returns only operands that do. -/
  sound : n.returnsTruth = true → ∀ binding value, Concludes compare binding n value →
    value.IsBoolean
  /-- Any other value is that of an operand that can be returned and is not known to be
  true or false. -/
  unknown : ∀ binding value, Concludes compare binding n value → ¬value.IsBoolean →
    ∃ m ∈ n.returned value.isTruthy, m.isBooleanValued = false ∧
      Concludes compare binding m value
  /-- Where variables are independent there is such a value if there is such an operand. -/
  exact : n.IsOpen → n.names.Nodup → compare.BothWays →
    ((∀ binding value, Concludes compare binding n value → value.IsBoolean) ↔
      n.returnsTruth = true)

theorem Node.exists_unknown_of_returnsTruth (fails : n.returnsTruth = false) :
    ∃ truthy, ∃ m ∈ n.returned truthy, m.isBooleanValued = false := by
  rw [returnsTruth, List.all_eq_false] at fails
  obtain ⟨truthy, _, fails⟩ := fails
  rw [Bool.not_eq_true, List.all_eq_false] at fails
  obtain ⟨m, member, fails⟩ := fails
  rw [Bool.or_eq_true, not_or, Bool.not_eq_true] at fails
  exact ⟨truthy, m, member, fails.1⟩

/-- An expression that counts as a truth value is one where all operands that can be
returned are. -/
theorem truthWhen_of_isBooleanValued (compare : Comparison) (known : n.isBooleanValued = true) :
    TruthWhen compare n := by
  have sound : n.returnsTruth = true → ∀ binding value, Concludes compare binding n value →
      value.IsBoolean := fun returns binding value concludes => concludes.isBoolean returns
  refine ⟨?_, sound, ?_, ?_⟩
  · intro plain
    simp [Node.returnsTruth, Node.returned_of_plain plain, known]
  · intro binding value concludes other
    exact concludes.exists_unknown other
  · intro isOpen distinct bothWays
    refine ⟨?_, sound⟩
    intro always
    by_contra fails
    rw [Bool.not_eq_true] at fails
    obtain ⟨truthy, m, member, unknown⟩ := Node.exists_unknown_of_returnsTruth fails
    obtain ⟨binding, value, concludes, other, _⟩ :=
      isOpen.exists_concludes_other distinct bothWays member unknown
    exact other (always binding value concludes)

end StyleAudit
