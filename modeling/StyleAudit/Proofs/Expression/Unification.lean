import StyleAudit.Proofs.Expression.CatchAll

/-!
# Unification and matching

A value that is written out matches a pattern or does not, and `Node.unifies` is
asked whether it could. Where it does match, the answer is yes exactly if the pattern
spells it (`Node.unifies_iff_spells`): the pattern has no `=` between two patterns that
are no variables, and true, false and nil stand there in the notation of the value.
-/

namespace StyleAudit

/-! ## Values that are written out -/

namespace Node

/-- The tree is made of atoms and literals by tuples and lists. -/
inductive IsClosed : Node → Prop
  | scalar {n : Node} {scalar : Scalar} (stands : n.scalar? = some scalar) : IsClosed n
  | sequence {n : Node} (isSequence : n.kind = .tuple ∨ n.kind = .list)
      (items : ∀ child ∈ n.children, IsClosed child) : IsClosed n

/-- As far as its variables leave the value open the pattern spells it: a `=` has a
variable on one side, and true, false and nil, which can be written as atoms and as
literals, are written alike. A NaN spells nothing. -/
inductive Spells : Node → Node → Prop
  | opens {pattern value : Node} (catchAll : pattern.isCatchAll = true) : Spells pattern value
  | scalar {pattern value : Node} {scalar : Scalar} (stands : pattern.scalar? = some scalar)
      (noNaN : scalar ≠ .float .nan) (sameKind : value.kind = pattern.kind) :
      Spells pattern value
  | sequence {pattern value : Node} (isSequence : pattern.kind = .tuple ∨ pattern.kind = .list)
      (items : List.Forall₂ Spells pattern.children value.children) : Spells pattern value

end Node

variable {pattern site n : Node} {binding other : Binding} {value : Datum}

namespace Node

/-- What is written out is never opaque. -/
theorem IsClosed.isOpaque_eq_false (closed : n.IsClosed) : n.kind.isOpaque = false := by
  cases closed with
  | scalar stands =>
      rcases kind_of_scalar? stands with isAtom | isLiteral
      · rw [isAtom]
        rfl
      · rw [isLiteral]
        rfl
  | sequence isSequence =>
      rcases isSequence with isTuple | isList
      · rw [isTuple]
        rfl
      · rw [isList]
        rfl

theorem IsClosed.items (closed : n.IsClosed) (isSequence : n.kind = .tuple ∨ n.kind = .list) :
    ∀ child ∈ n.children, child.IsClosed := by
  cases closed with
  | scalar stands =>
      rcases kind_of_scalar? stands with isScalar | isScalar <;>
        rcases isSequence with isKind | isKind <;> cases isScalar.symm.trans isKind
  | sequence _ items => exact items

/-- How the value of a tree that is written out is read from it. -/
theorem IsClosed.reading (closed : n.IsClosed) (evaluates : Evaluates binding n value) :
    (∃ scalar, n.scalar? = some scalar ∧ value = .scalar scalar) ∨
      ∃ values, List.Forall₂ (Evaluates binding) n.children values ∧
        (n.kind = .tuple ∧ value = .tuple values ∨ n.kind = .list ∧ value = .list values) := by
  have read := evaluates_iff.mp evaluates
  cases closed with
  | scalar stands => exact Or.inl (evaluates.exists_scalar (kind_of_scalar? stands))
  | sequence isSequence =>
      rcases isSequence with isTuple | isList
      · rw [isTuple] at read
        obtain ⟨values, rfl, items⟩ := read
        exact Or.inr ⟨values, items, Or.inl ⟨isTuple, rfl⟩⟩
      · rw [isList] at read
        obtain ⟨values, rfl, items⟩ := read
        exact Or.inr ⟨values, items, Or.inr ⟨isList, rfl⟩⟩

/-! ## Atoms and literals -/

end Node

theorem Scalar.ofLiteral_injective {literal other : Literal}
    (same : Scalar.ofLiteral literal = .ofLiteral other) : literal = other := by
  rcases literal with _ | (_ | _) | _ | _ | _ <;> rcases other with _ | (_ | _) | _ | _ | _ <;>
    simp_all [Scalar.ofLiteral]

namespace Node

/-- In one notation a scalar is written in one way. -/
theorem attr_eq_of_scalar? {scalar : Scalar} (stands : pattern.scalar? = some scalar)
    (alsoStands : n.scalar? = some scalar) (sameKind : n.kind = pattern.kind) :
    n.attr "value" = pattern.attr "value" := by
  obtain ⟨literal, found, reading⟩ := scalar?_eq_some_iff.mp stands
  obtain ⟨other, alsoFound, alsoReading⟩ := scalar?_eq_some_iff.mp alsoStands
  rw [attr, attr, found, alsoFound]
  rcases reading with ⟨isAtom, name, rfl, isScalar⟩ | ⟨isLiteral, isScalar⟩
  · rcases alsoReading with ⟨_, otherName, rfl, alsoScalar⟩ | ⟨isLiteral, _⟩
    · cases isScalar.symm.trans alsoScalar
      rfl
    · cases isAtom.symm.trans (sameKind.symm.trans isLiteral)
  · rcases alsoReading with ⟨isAtom, _⟩ | ⟨_, alsoScalar⟩
    · cases isAtom.symm.trans (sameKind.trans isLiteral)
    · rw [Scalar.ofLiteral_injective (alsoScalar.symm.trans isScalar)]

/-- Only a NaN is written with the attribute of a NaN. -/
theorem attr_eq_NaN_iff {scalar : Scalar} (stands : n.scalar? = some scalar) :
    n.attr "value" = .one (.float .nan) ↔ scalar = .float .nan := by
  obtain ⟨literal, found, ⟨_, name, rfl, rfl⟩ | ⟨_, rfl⟩⟩ := scalar?_eq_some_iff.mp stands
  · simp [attr, found]
  · rw [attr, found]
    constructor
    · intro isNaN
      cases isNaN
      rfl
    · intro isNaN
      have sameLiteral : literal = .float .nan := Scalar.ofLiteral_injective isNaN
      rw [sameLiteral]
      rfl

theorem unifies_constant_iff (isConstant : pattern.kind = .atom ∨ pattern.kind = .literal)
    (known : site.kind.isOpaque = false) : pattern.unifies site = true ↔
      site.kind = pattern.kind ∧
        (site.attr "value").equals (pattern.attr "value") = true := by
  obtain ⟨kind, span, attributes, children⟩ := pattern
  rcases isConstant with isAtom | isLiteral
  · cases isAtom
    simp [unifies, known]
  · cases isLiteral
    simp [unifies, known]

/-- Two spellings of one scalar unify exactly when they are of one kind and the
scalar is no NaN. -/
theorem unifies_iff_of_scalar {scalar : Scalar} (stands : pattern.scalar? = some scalar)
    (alsoStands : site.scalar? = some scalar) :
    pattern.unifies site = true ↔ scalar ≠ .float .nan ∧ site.kind = pattern.kind := by
  have known : site.kind.isOpaque = false := (IsClosed.scalar alsoStands).isOpaque_eq_false
  rw [unifies_constant_iff (kind_of_scalar? stands) known]
  constructor
  · rintro ⟨sameKind, same⟩
    refine ⟨?_, sameKind⟩
    intro isNaN
    rw [(attr_eq_NaN_iff alsoStands).mpr isNaN, (attr_eq_NaN_iff stands).mpr isNaN] at same
    cases same
  · rintro ⟨noNaN, sameKind⟩
    refine ⟨sameKind, ?_⟩
    rw [attr_eq_of_scalar? stands alsoStands sameKind]
    exact Attribute.equals_self fun isNaN => noNaN ((attr_eq_NaN_iff stands).mp isNaN)

/-! ## Matched values -/

theorem unifies_sequence_iff (isSequence : pattern.kind = .tuple ∨ pattern.kind = .list)
    (known : site.kind.isOpaque = false) : pattern.unifies site = true ↔
      site.kind = pattern.kind ∧ List.Forall₂ (fun pattern site => pattern.unifies site = true)
        pattern.children site.children := by
  rw [← unifiesAll_iff]
  obtain ⟨kind, span, attributes, children⟩ := pattern
  rcases isSequence with isTuple | isList
  · cases isTuple
    simp [unifies, known]
  · cases isList
    simp [unifies, known]

/-- What it takes to spell a value, by the kind of the pattern. -/
theorem spells_iff : pattern.Spells site ↔
    match pattern.kind with
    | .var => True
    | .matchExpr => (boundSide? pattern.children).isSome = true
    | .atom | .literal => ∃ scalar, pattern.scalar? = some scalar ∧ scalar ≠ .float .nan ∧
        site.kind = pattern.kind
    | .tuple | .list => List.Forall₂ Spells pattern.children site.children
    | _ => False := by
  constructor
  · intro spells
    cases spells with
    | opens catchAll =>
        rcases isCatchAll_iff.mp catchAll with isVar | ⟨isMatch, bound⟩
        · rw [isVar]
          trivial
        · rw [isMatch]
          exact bound
    | @scalar _ _ scalar stands noNaN sameKind =>
        rcases kind_of_scalar? stands with isAtom | isLiteral
        · rw [isAtom]
          exact ⟨scalar, stands, noNaN, sameKind.trans isAtom⟩
        · rw [isLiteral]
          exact ⟨scalar, stands, noNaN, sameKind.trans isLiteral⟩
    | sequence isSequence items =>
        rcases isSequence with isTuple | isList
        · rw [isTuple]
          exact items
        · rw [isList]
          exact items
  · intro holds
    split at holds
    · rename_i isVar
      exact .opens (isCatchAll_iff.mpr (Or.inl isVar))
    · rename_i isMatch
      exact .opens (isCatchAll_iff.mpr (Or.inr ⟨isMatch, holds⟩))
    · obtain ⟨scalar, stands, noNaN, sameKind⟩ := holds
      exact .scalar stands noNaN sameKind
    · obtain ⟨scalar, stands, noNaN, sameKind⟩ := holds
      exact .scalar stands noNaN sameKind
    · rename_i isTuple
      exact .sequence (Or.inl isTuple) holds
    · rename_i isList
      exact .sequence (Or.inr isList) holds
    · exact holds.elim

theorem spells_scalar_iff {scalar : Scalar} (stands : pattern.scalar? = some scalar) :
    pattern.Spells site ↔ scalar ≠ .float .nan ∧ site.kind = pattern.kind := by
  have inversion : pattern.Spells site ↔ ∃ other, pattern.scalar? = some other ∧
      other ≠ .float .nan ∧ site.kind = pattern.kind := by
    rw [spells_iff]
    rcases kind_of_scalar? stands with isKind | isKind <;> simp only [isKind]
  rw [inversion]
  constructor
  · rintro ⟨other, alsoStands, spelled⟩
    cases stands.symm.trans alsoStands
    exact spelled
  · intro spelled
    exact ⟨scalar, stands, spelled⟩

theorem spells_sequence_iff (isSequence : pattern.kind = .tuple ∨ pattern.kind = .list) :
    pattern.Spells site ↔ List.Forall₂ Spells pattern.children site.children := by
  rw [spells_iff]
  rcases isSequence with isTuple | isList
  · rw [isTuple]
  · rw [isList]

/-- A `=` without a variable on one of its sides answers no to every value that is
written out, and spells none. -/
theorem unifies_match_iff (isMatch : pattern.kind = .matchExpr)
    (known : site.kind.isOpaque = false) :
    pattern.unifies site = true ↔ pattern.Spells site := by
  rw [spells_iff]
  obtain ⟨kind, span, attributes, children⟩ := pattern
  cases isMatch
  simp [unifies, known]

/-- A value that matches a pattern unifies with it if the pattern spells it, and only
then. -/
theorem unifies_iff_spells (closed : site.IsClosed) (evaluates : Evaluates other site value)
    (holds : Matches binding pattern value) :
    pattern.unifies site = true ↔ pattern.Spells site := by
  induction pattern using childInduction generalizing site value with
  | step pattern inductionHypothesis =>
      have known := closed.isOpaque_eq_false
      have sequence : ∀ {values}, pattern.kind = .tuple ∨ pattern.kind = .list →
          site.kind = pattern.kind → List.Forall₂ (Matches binding) pattern.children values →
          List.Forall₂ (Evaluates other) site.children values →
          (pattern.unifies site = true ↔ pattern.Spells site) := by
        intro values isSequence sameKind matched evaluated
        have closedItems := closed.items (sameKind ▸ isSequence)
        have bothItems : List.Forall₂ (fun child item => child.IsClosed ∧
            Evaluates other child item) site.children values :=
          Outcome.forall₂_imp_mem evaluated fun child isChild _ _ here =>
            ⟨closedItems child isChild, here⟩
        have each : List.Forall₂ (fun item child => (item.unifies child = true ↔
            item.Spells child)) pattern.children site.children :=
          Outcome.forall₂_join matched.flip bothItems.flip
            fun _ _ item isItem _ here both => inductionHypothesis item isItem both.1 both.2 here
        rw [unifies_sequence_iff isSequence known, and_iff_right sameKind,
          Outcome.forall₂_congr each, spells_sequence_iff isSequence]
      have read := closed.reading evaluates
      cases holds with
      | blank isBlank =>
          have catchAll := isCatchAll_iff.mpr (Or.inl (kind_of_varName? isBlank))
          exact iff_of_true (unifies_of_reduced_var (beq_iff_eq.mp catchAll)) (.opens catchAll)
      | bound named =>
          have catchAll := isCatchAll_iff.mpr (Or.inl (kind_of_varName? named))
          exact iff_of_true (unifies_of_reduced_var (beq_iff_eq.mp catchAll)) (.opens catchAll)
      | scalar stands =>
          rcases read with ⟨_, alsoStands, same⟩ | ⟨_, _, ⟨_, same⟩ | ⟨_, same⟩⟩ <;> cases same
          rw [unifies_iff_of_scalar stands alsoStands, spells_scalar_iff stands]
      | tuple isTuple matched =>
          rcases read with ⟨_, _, same⟩ | ⟨_, evaluated, ⟨alsoTuple, same⟩ | ⟨_, same⟩⟩ <;>
            cases same
          exact sequence (Or.inl isTuple) (alsoTuple.trans isTuple.symm) matched evaluated
      | list isList matched =>
          rcases read with ⟨_, _, same⟩ | ⟨_, evaluated, ⟨_, same⟩ | ⟨alsoList, same⟩⟩ <;>
            cases same
          exact sequence (Or.inr isList) (alsoList.trans isList.symm) matched evaluated
      | map =>
          rcases read with ⟨_, _, same⟩ | ⟨_, _, ⟨_, same⟩ | ⟨_, same⟩⟩ <;> cases same
      | both isMatch => exact unifies_match_iff isMatch known

end Node

end StyleAudit
