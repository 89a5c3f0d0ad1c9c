import StyleAudit.Proofs.Number.Exact
import StyleAudit.Tree.Attribute

/-!
# What literals count as

Literals are compared by what they count as (`Literal.worth`): truth values,
integers and doubles by the number, all else by what it is. So attributes that are
compared as equal but are not the same write a number in two ways
(`Attribute.respells_of_worth_eq`).
-/

namespace StyleAudit

/-- What a literal counts as. -/
inductive Worth
  | null
  | text (value : String)
  | number (value : ℚ)
  | infinite (negative : Bool)
  | nan
  deriving DecidableEq

/-! ## Literals -/

namespace Binary64

variable {x y : Binary64}

/-- What a double counts as. -/
def worth : Binary64 → Worth
  | nan => .nan
  | infinite negative => .infinite negative
  | finite negative mantissa exponent => .number (rational negative mantissa exponent)

theorem equalsInt_iff {value : Int} : x.equalsInt value = true ↔ x.worth = .number value := by
  cases x with
  | finite => simp [worth, equalsInt_finite_iff]
  | _ => simp [worth, equalsInt]

theorem equals_iff : x.equals y = true ↔ x ≠ .nan ∧ x.worth = y.worth := by
  cases x with
  | finite =>
      cases y with
      | finite => simp [worth, equals_finite_iff]
      | _ => simp [worth, equals]
  | _ => cases y <;> simp [worth, equals]

end Binary64

namespace Literal

variable {a b : Literal}

/-- What a literal counts as: true is one and false is zero. -/
def worth : Literal → Worth
  | null => .null
  | bool value => .number (if value then 1 else 0)
  | int value => .number value
  | float value => value.worth
  | text value => .text value

theorem same_float {x y : Binary64} :
    (float x).same (float y) = true ↔ x.worth = y.worth := by
  by_cases isNaN : x = .nan
  · subst isNaN
    cases y <;> simp [same, equals, Binary64.equals, Binary64.worth]
  · rw [same, equals, Binary64.equals_iff, and_iff_right isNaN]
    intro impossible
    cases impossible
    exact absurd rfl isNaN

theorem worth_of_integer? {value : Int} (counts : a.integer? = some value) :
    a.worth = .number value := by
  rcases a with _ | (_ | _) | _ | _ | _ <;> cases counts <;> simp [worth]

/-- Truth values and integers are compared by the integer they count as. -/
theorem same_of_integer? {value : Int} (counts : a.integer? = some value) :
    a.same b = true ↔ b.worth = .number value := by
  have compared : a.same b = true ↔
      (∃ y, b = float y ∧ y.equalsInt value = true) ∨ b.integer? = some value := by
    cases a <;> cases counts <;> cases b <;> simp [same, equals, integer?]
  rw [compared]
  cases b with
  | float y => simp [integer?, worth, Binary64.equalsInt_iff]
  | bool other => cases other <;> simp [integer?, worth] <;> norm_cast
  | int other => simp [integer?, worth]
  | _ => simp [integer?, worth]

theorem float_same_of_integer? {x : Binary64} {value : Int} (counts : b.integer? = some value) :
    (float x).same b = true ↔ x.worth = .number value := by
  cases b <;> cases counts <;> simp [same, equals, integer?, Binary64.equalsInt_iff]

theorem same_iff : a.same b = true ↔ a.worth = b.worth := by
  cases a with
  | bool value => rw [same_of_integer? rfl, worth_of_integer? (a := bool value) rfl, eq_comm]
  | int value => rw [same_of_integer? rfl, worth_of_integer? (a := int value) rfl, eq_comm]
  | float x =>
      cases b with
      | float y => exact same_float
      | bool value =>
          rw [float_same_of_integer? rfl, worth_of_integer? (a := bool value) rfl, worth]
      | int value => rw [float_same_of_integer? rfl, worth_of_integer? (a := int value) rfl, worth]
      | _ => cases x <;> simp [same, equals, integer?, worth, Binary64.worth]
  | _ =>
      cases b with
      | float y => cases y <;> simp [same, equals, integer?, worth, Binary64.worth]
      | _ => simp [same, equals, integer?, worth]

theorem eq_of_worth_eq (noNumber : ∀ value, a.worth ≠ .number value) (equal : a.worth = b.worth) :
    a = b := by
  rcases a with _ | _ | _ | (_ | _ | _) | _ <;> rcases b with _ | _ | _ | (_ | _ | _) | _ <;>
    simp_all [worth, Binary64.worth]

/-- Only numbers can be written in two ways. -/
theorem exists_number_of_worth_eq (equal : a.worth = b.worth) (other : a ≠ b) :
    ∃ value, a.worth = .number value ∧ b.worth = .number value := by
  by_contra noNumber
  rw [not_exists] at noNumber
  refine other (eq_of_worth_eq (fun value counts => ?_) equal)
  exact noNumber value ⟨counts, equal.symm.trans counts⟩

end Literal

/-! ## Attributes -/

namespace Attribute

variable {a b : Attribute}

/-- What an attribute counts as: each of its literals as what it counts as. -/
def worth : Attribute → Worth ⊕ List Worth
  | one value => .inl value.worth
  | many values => .inr (values.map Literal.worth)

theorem sameLists_iff {as bs : List Literal} :
    sameLists as bs = true ↔ as.map Literal.worth = bs.map Literal.worth := by
  induction as generalizing bs with
  | nil => cases bs <;> simp [sameLists]
  | cons first rest inductionHypothesis =>
      cases bs with
      | nil => simp [sameLists]
      | cons other others => simp [sameLists, Literal.same_iff, inductionHypothesis]

theorem same_iff : a.same b = true ↔ a.worth = b.worth := by
  cases a <;> cases b <;> simp [same, worth, Literal.same_iff, sameLists_iff]

/-- The literals of an attribute. -/
def literals : Attribute → List Literal
  | one value => [value]
  | many values => values

/-- Two attributes hold the same number at the same index, and write it in two
ways. -/
def Respells (a b : Attribute) : Prop :=
  ∃ (index : Nat) (literal other : Literal) (value : ℚ), a.literals[index]? = some literal ∧
    b.literals[index]? = some other ∧ literal ≠ other ∧ literal.worth = .number value ∧
    other.worth = .number value

theorem Respells.ne (respells : a.Respells b) : a ≠ b := by
  obtain ⟨index, literal, other, _, found, alsoFound, differ, _⟩ := respells
  rintro rfl
  rw [found] at alsoFound
  exact differ (Option.some.inj alsoFound)

/-- Attributes that count as the same are the same unless they write a number in two
ways. -/
theorem respells_of_worth_eq (equal : a.worth = b.worth) (differ : a ≠ b) : a.Respells b := by
  have sameWorth : a.literals.map Literal.worth = b.literals.map Literal.worth := by
    cases a <;> cases b <;> simp_all [worth, literals]
  have otherLiterals : a.literals ≠ b.literals := by
    intro same
    cases a <;> cases b <;> simp_all [worth, literals]
  have someIndex : ∃ index : Nat, a.literals[index]? ≠ b.literals[index]? := by
    by_contra none
    rw [not_exists] at none
    exact otherLiterals (List.ext_getElem? fun index => not_not.mp (none index))
  obtain ⟨index, here⟩ := someIndex
  have worthHere : a.literals[index]?.map Literal.worth = b.literals[index]?.map Literal.worth := by
    rw [← List.getElem?_map, sameWorth, List.getElem?_map]
  cases found : a.literals[index]? with
  | none =>
      rw [found, Option.map_none, eq_comm, Option.map_eq_none_iff] at worthHere
      exact absurd (found.trans worthHere.symm) here
  | some literal =>
      rw [found, Option.map_some, eq_comm, Option.map_eq_some_iff] at worthHere
      obtain ⟨other, alsoFound, counts⟩ := worthHere
      have isOther : literal ≠ other := by
        rintro rfl
        exact here (found.trans alsoFound.symm)
      obtain ⟨value, number, otherNumber⟩ := Literal.exists_number_of_worth_eq counts.symm isOther
      exact ⟨index, literal, other, value, found, alsoFound, isOther, number, otherNumber⟩

end Attribute

end StyleAudit
