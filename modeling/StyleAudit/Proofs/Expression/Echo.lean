import StyleAudit.Proofs.Expression.Restatement

/-!
# Echoes and the values that they return

The body of an echo is its reduced pattern once more, up to numbers that are written in
another way. Read as an expression it has the value that was matched when its literals
stand for the same values and it builds no map (`isEcho_returnsMatch`): a map pattern
also matches larger maps, of which only the keys that it names are left.
-/

namespace StyleAudit

variable {binding : Binding} {n left right branch pattern expression : Node} {value : Datum}

/-! ## Reduced patterns -/

/-- Reducing a pattern drops demands on the value and makes none. -/
theorem Matches.reduced (holds : Matches binding n value) : Matches binding n.reduced value := by
  induction n using Node.childInduction generalizing value with
  | step n inductionHypothesis =>
      obtain ⟨kind, span, attributes, children⟩ := n
      cases kind with
      | matchExpr =>
          obtain ⟨first, second, sides, firstHolds, secondHolds⟩ := matches_iff.mp holds
          change children = [first, second] at sides
          subst sides
          rw [Node.reduced, Node.boundSide?]
          split
          · exact firstHolds
          · split
            · exact secondHolds
            · exact holds
      | tuple =>
          obtain ⟨values, rfl, items⟩ := matches_iff.mp holds
          rw [Node.reduced, Node.reducedAll_eq_map]
          refine .tuple rfl ?_
          rw [List.forall₂_map_left_iff]
          exact Outcome.forall₂_imp_mem items fun child member _ _ here =>
            inductionHypothesis child member here
      | _ => exact holds

/-! ## Expressions that build no map -/

/-- The value of the expression is made of variables, atoms and literals by tuples and
lists. A map, or the variable `_`, stands on the left of `=` at most. -/
inductive Node.BuildsNoMap : Node → Prop
  | named {n : Node} {name : String} (named : n.varName? = some name) (used : name ≠ "_") :
      BuildsNoMap n
  | scalar {n : Node} {scalar : Scalar} (stands : n.scalar? = some scalar) : BuildsNoMap n
  | sequence {n : Node} (isSequence : n.kind = .tuple ∨ n.kind = .list)
      (items : ∀ child ∈ n.children, BuildsNoMap child) : BuildsNoMap n
  | rebind {n left right : Node} (isMatch : n.kind = .matchExpr)
      (sides : n.children = [left, right]) (second : BuildsNoMap right) : BuildsNoMap n

/-- An expression that restates a pattern and builds no map has every value that the
pattern matches. -/
theorem evaluates_of_matches (restates : left.Restates right) (plain : right.BuildsNoMap)
    (holds : Matches binding left value) : Evaluates binding right value := by
  induction left using Node.childInduction generalizing right value with
  | step left inductionHypothesis =>
      have sameKind := restates.kind_eq
      have items : ∀ {values : List Datum}, left.kind.hasParts = true →
          (∀ child ∈ right.children, child.BuildsNoMap) →
          List.Forall₂ (Matches binding) left.children values →
          List.Forall₂ (Evaluates binding) right.children values := by
        intro values hasParts plainItems each
        refine Outcome.forall₂_join (restates.children hasParts) each ?_
        intro child member other isOther _ same here
        exact inductionHypothesis child member same (plainItems other isOther) here
      have matched := matches_iff.mp holds
      cases plain with
      | @named _ name named used =>
          rw [← sameKind, Node.kind_of_varName? named] at matched
          obtain ⟨other, otherNamed, isValue⟩ := matched
          cases named.symm.trans (restates.varName?_eq otherNamed)
          rcases isValue with blank | rfl
          · exact absurd blank used
          · exact .bound named used
      | @scalar _ scalar stands =>
          have isScalar := Node.kind_of_scalar? stands
          rw [sameKind] at isScalar
          obtain ⟨other, otherStands, rfl⟩ := holds.exists_scalar isScalar
          exact .scalar (restates.scalar?_eq.trans otherStands)
      | sequence isSequence plainItems =>
          rcases isSequence with isTuple | isList
          · rw [← sameKind, isTuple] at matched
            obtain ⟨values, rfl, each⟩ := matched
            exact .tuple isTuple (items (by rw [← sameKind, isTuple]; rfl) plainItems each)
          · rw [← sameKind, isList] at matched
            obtain ⟨values, rfl, each⟩ := matched
            exact .list isList (items (by rw [← sameKind, isList]; rfl) plainItems each)
      | @rebind _ first' second' isMatch otherSides plainSecond =>
          rw [← sameKind, isMatch] at matched
          obtain ⟨first, second, sides, firstHolds, secondHolds⟩ := matched
          obtain ⟨_, _, alsoSides, sameFirst, sameSecond⟩ :=
            restates.sides (sameKind.symm.trans isMatch) sides
          cases otherSides.symm.trans alsoSides
          have isSecond : second ∈ left.children := by simp [sides]
          exact .rebind isMatch otherSides
            (inductionHypothesis second isSecond sameSecond plainSecond secondHolds)
            (firstHolds.of_restates sameFirst)

/-- A value with a further key in each of its maps is that of no map that is built. -/
theorem buildsNoMap_of_evaluates {number : Nat}
    (evaluates : Evaluates binding n (value.extend (.other number))) : n.BuildsNoMap := by
  generalize extended : value.extend (.other number) = result at evaluates
  induction n using Node.childInduction generalizing value result with
  | step n inductionHypothesis =>
      have items : ∀ {values : List Datum},
          List.Forall₂ (Evaluates binding) n.children (values.map (·.extend (.other number))) →
          ∀ child ∈ n.children, child.BuildsNoMap := by
        intro values each child member
        obtain ⟨item, isItem, here⟩ := Outcome.exists_of_forall₂_of_mem_left each member
        obtain ⟨smaller, _, isExtended⟩ := List.mem_map.mp isItem
        exact inductionHypothesis child member item isExtended here
      cases evaluates with
      | bound named used => exact .named named used
      | scalar stands => exact .scalar stands
      | tuple isTuple each =>
          cases value with
          | tuple values =>
              rw [Datum.extend, Datum.extendAll_eq_map] at extended
              cases extended
              exact .sequence (Or.inl isTuple) (items each)
          | _ => cases extended
      | list isList each =>
          cases value with
          | list values =>
              rw [Datum.extend, Datum.extendAll_eq_map] at extended
              cases extended
              exact .sequence (Or.inr isList) (items each)
          | _ => cases extended
      | @map _ entries values isMap pairs each =>
          cases value with
          | map larger =>
              have sameItems := congrFun (Datum.map.inj extended) (.other number)
              rw [if_pos rfl, eq_comm, List.lookup_eq_some_iff] at sameItems
              obtain ⟨before, after, split, _⟩ := sameItems
              have listed : (.other number, .scalar (.other number)) ∈
                  (entries.map (·.1)).zip values := by
                rw [← List.mem_reverse, split]
                simp
              obtain ⟨entry, isEntry, isKey⟩ := List.mem_map.mp (List.of_mem_zip listed).1
              exact absurd isKey (pairs.ne_other isEntry number)
          | _ => cases extended
      | @rebind _ left right _ _ isMatch sides second _ =>
          have isRight : right ∈ n.children := by simp [sides]
          exact .rebind isMatch sides (inductionHypothesis right isRight _ extended second)

/-- Where the value is returned, the scalars that it was read from stand for the same
values. -/
theorem sameScalars_of_evaluates (alike : left.structurallyEqual right = true)
    (plain : right.BuildsNoMap) (noMatch : ∀ m ∈ left.preorder, m.kind ≠ .matchExpr)
    (holds : Matches binding left value) (evaluates : Evaluates binding right value) :
    left.SameScalars right := by
  induction left using Node.childInduction generalizing right value with
  | step left inductionHypothesis =>
      have sameKind := Node.kind_of_structurallyEqual alike
      have items : ∀ {values : List Datum}, (∀ child ∈ right.children, child.BuildsNoMap) →
          List.Forall₂ (Matches binding) left.children values →
          List.Forall₂ (Evaluates binding) right.children values →
          List.Forall₂ Node.SameScalars left.children right.children := by
        intro values plainItems each read
        have shared : List.Forall₂ (fun first second => ∃ item, Matches binding first item ∧
            Evaluates binding second item) left.children right.children :=
          Outcome.forall₂_join each.flip read.flip fun item _ _ _ _ here alsoHere =>
            ⟨item, here, alsoHere⟩
        have both := Outcome.forall₂_and (Node.structurallyEqual_iff.mp alike).2.2 shared
        refine Outcome.forall₂_imp_mem both ?_
        rintro child member other isOther ⟨same, item, here, alsoHere⟩
        refine inductionHypothesis child member same (plainItems other isOther) ?_ here alsoHere
        intro m inside
        exact noMatch m (Node.mem_preorder_iff.mpr (Or.inr ⟨child, member, inside⟩))
      have matched := matches_iff.mp holds
      have read := evaluates_iff.mp evaluates
      cases plain with
      | named named used =>
          have isVar := Node.kind_of_varName? named
          refine .leaf (by rw [← sameKind, isVar]; rfl) ?_
          have noScalar : ∀ n : Node, n.kind = .var → n.scalar? = none := by
            intro n isVariable
            refine Node.scalar?_eq_none ?_ ?_ <;> rw [isVariable] <;> decide
          rw [noScalar right isVar, noScalar left (sameKind.symm.trans isVar)]
      | @scalar _ scalar stands =>
          have isScalar := Node.kind_of_scalar? stands
          obtain ⟨alsoScalar, alsoStands, rfl⟩ := evaluates.exists_scalar isScalar
          rw [sameKind] at isScalar
          obtain ⟨other, otherStands, same⟩ := holds.exists_scalar isScalar
          cases same
          refine .leaf ?_ (alsoStands.trans otherStands.symm)
          rcases isScalar with isAtom | isLiteral
          · rw [isAtom]
            rfl
          · rw [isLiteral]
            rfl
      | sequence isSequence plainItems =>
          rcases isSequence with isTuple | isList
          · rw [← sameKind, isTuple] at matched
            rw [isTuple] at read
            obtain ⟨values, rfl, each⟩ := matched
            obtain ⟨others, same, alsoEach⟩ := read
            cases same
            exact .parts (by rw [← sameKind, isTuple]; rfl) (items plainItems each alsoEach)
          · rw [← sameKind, isList] at matched
            rw [isList] at read
            obtain ⟨values, rfl, each⟩ := matched
            obtain ⟨others, same, alsoEach⟩ := read
            cases same
            exact .parts (by rw [← sameKind, isList]; rfl) (items plainItems each alsoEach)
      | rebind isMatch =>
          exact absurd (sameKind.symm.trans isMatch) (noMatch left (Node.mem_preorder_self left))

/-! ## Echoes -/

theorem exists_of_isEcho (echo : branch.isEcho = true) :
    ∃ pattern body expression, branch.branchParts? = some (pattern, body) ∧
      body.singleExpression? = some expression ∧
      pattern.reduced.structurallyEqual expression = true := by
  rw [Node.isEcho] at echo
  split at echo
  · rename_i pattern body parts
    obtain ⟨expression, single, alike⟩ := (Option.any_eq_true _ _).mp echo
    exact ⟨pattern, body, expression, parts, single, alike⟩
  · cases echo

/-- The expression has every value that the pattern matches, under every binding under
which it does. -/
def ReturnsMatch (pattern expression : Node) : Prop :=
  ∀ binding value, Matches binding pattern value → Evaluates binding expression value

/-- When an expression that looks like the pattern returns what the pattern matched. -/
structure ReturnsMatchWhen (pattern expression : Node) : Prop where
  /-- It does so, and has no other value, where the literals stand for the same values
  and no map is built. -/
  sound : pattern.reduced.SameScalars expression → expression.BuildsNoMap →
    ∀ binding value, Matches binding pattern value →
      ∀ result, Evaluates binding expression result ↔ result = value
  /-- It does not where a map is built, unless the pattern matches nothing. -/
  needed : (∃ binding value, Matches binding pattern value) → ReturnsMatch pattern expression →
    expression.BuildsNoMap
  /-- Without `=` in the reduced pattern no other case is left. -/
  exact : (∀ m ∈ pattern.reduced.preorder, m.kind ≠ .matchExpr) →
    (∃ binding value, Matches binding pattern value) →
      (ReturnsMatch pattern expression ↔
        pattern.reduced.SameScalars expression ∧ expression.BuildsNoMap)

theorem buildsNoMap_of_returnsMatch (holds : Matches binding pattern value)
    (returns : ReturnsMatch pattern expression) : expression.BuildsNoMap :=
  buildsNoMap_of_evaluates (returns _ _ (holds.extend 0))

/-- A body that equals the reduced pattern returns what was matched wherever scalars
agree and no map is built. -/
theorem returnsMatchWhen_of_structurallyEqual
    (alike : pattern.reduced.structurallyEqual expression = true) :
    ReturnsMatchWhen pattern expression := by
  have sound : pattern.reduced.SameScalars expression → expression.BuildsNoMap →
      ReturnsMatch pattern expression := by
    intro scalars plain binding value holds
    exact evaluates_of_matches ⟨alike, scalars⟩ plain holds.reduced
  refine ⟨?_, ?_, ?_⟩
  · intro scalars plain binding value holds result
    have returned := sound scalars plain binding value holds
    constructor
    · intro evaluates
      exact evaluates.unique returned
    · rintro rfl
      exact returned
  · rintro ⟨binding, value, holds⟩ returns
    exact buildsNoMap_of_returnsMatch holds returns
  · rintro noMatch ⟨binding, value, holds⟩
    constructor
    · intro returns
      have plain := buildsNoMap_of_returnsMatch holds returns
      exact ⟨sameScalars_of_evaluates alike plain noMatch holds.reduced
        (returns binding value holds), plain⟩
    · rintro ⟨scalars, plain⟩
      exact sound scalars plain

/-- The body of an echo returns the matched value untouched if its atoms and literals
stand for those of the pattern and it builds no map. -/
theorem isEcho_returnsMatch (echo : branch.isEcho = true) :
    ∃ pattern body expression, branch.branchParts? = some (pattern, body) ∧
      body.singleExpression? = some expression ∧ ReturnsMatchWhen pattern expression := by
  obtain ⟨pattern, body, expression, parts, single, alike⟩ := exists_of_isEcho echo
  exact ⟨pattern, body, expression, parts, single, returnsMatchWhen_of_structurallyEqual alike⟩

/-! ## A bound map and a map that is built -/

def plainForm (kind : Kind) (attributes : Attributes) (children : List Node) : Node :=
  ⟨kind, ⟨"lib/a.ex", ⟨1, 1, 1, 1⟩⟩, attributes, children⟩

def variableForm (name : String) : Node :=
  plainForm .var [("name", .one (.text name))] []

def constantForm (kind : Kind) (value : Literal) : Node :=
  plainForm kind [("value", .one value)] []

/-- The map with the key `:a` and a variable. -/
def mapForm : Node :=
  plainForm .map [] [plainForm .pair [] [constantForm .atom (.text "a"), variableForm "x"]]

/-- An error with a map that a variable stands for. -/
def boundPattern : Node :=
  plainForm .tuple [] [constantForm .atom (.text "error"),
    plainForm .matchExpr [] [variableForm "reason", mapForm]]

def boundBody : Node :=
  plainForm .tuple [] [constantForm .atom (.text "error"), variableForm "reason"]

def oneEntry : Datum :=
  .ofEntries [(.atom "a", .scalar (.int 1))]

def twoEntries : Datum :=
  .ofEntries [(.atom "a", .scalar (.int 1)), (.atom "b", .scalar (.int 2))]

theorem matches_variableForm {name : String} (used : name ≠ "_") :
    Matches binding (variableForm name) (binding name) :=
  .bound rfl used

theorem mapForm_hasEntries : mapForm.HasEntries [(.atom "a", variableForm "x")] :=
  .cons rfl .nil

theorem matches_mapForm {items : Scalar → Option Datum}
    (isItem : items (.atom "a") = some (binding "x")) : Matches binding mapForm (.map items) := by
  refine .map rfl mapForm_hasEntries ?_ ?_
  · intro entry member
    cases List.mem_singleton.mp member
    rw [isItem]
    rfl
  · intro entry member value found
    cases List.mem_singleton.mp member
    cases found.symm.trans isItem
    exact matches_variableForm (by decide)

theorem isEcho_returnsMatch_bound :
    (plainForm .branch [] [boundPattern, boundBody]).isEcho = true ∧
      boundPattern.reduced.SameScalars boundBody ∧ boundBody.BuildsNoMap ∧
      (∃ binding, Matches binding boundPattern
        (.tuple [.scalar (.atom "error"), twoEntries])) ∧
      ReturnsMatchWhen boundPattern boundBody := by
  have echo : (plainForm .branch [] [boundPattern, boundBody]).isEcho = true := by decide
  obtain ⟨pattern, body, expression, parts, single, returns⟩ := isEcho_returnsMatch echo
  cases parts
  cases single
  refine ⟨echo, ?_, ?_, ?_, returns⟩
  · exact .parts rfl (.cons (.leaf rfl rfl) (.cons (.leaf rfl rfl) .nil))
  · refine .sequence (Or.inl rfl) ?_
    intro child member
    rcases List.mem_cons.mp member with rfl | isLast
    · exact .scalar rfl
    · cases List.mem_singleton.mp isLast
      exact .named (rfl : (variableForm "reason").varName? = some "reason") (by decide)
  · let binding : Binding := fun name => if name = "x" then .scalar (.int 1) else twoEntries
    refine ⟨binding, .tuple rfl (.cons (.scalar rfl) (.cons ?_ .nil))⟩
    exact .both rfl rfl (matches_variableForm (by decide)) (matches_mapForm rfl)

/-- The echo of a map drops the keys that its pattern does not name, and the echo of
`1` as `true` returns another value. -/
theorem isEcho_not_returnsMatch :
    ((plainForm .branch [] [mapForm, mapForm]).isEcho = true ∧
      ∃ binding, Matches binding mapForm twoEntries ∧ Evaluates binding mapForm oneEntry ∧
        ¬Evaluates binding mapForm twoEntries) ∧
    ((plainForm .branch [] [constantForm .literal (.int 1),
        constantForm .literal (.bool true)]).isEcho = true ∧
      ∃ binding, Matches binding (constantForm .literal (.int 1)) (.scalar (.int 1)) ∧
        ¬Evaluates binding (constantForm .literal (.bool true)) (.scalar (.int 1))) := by
  let binding : Binding := fun _ => .scalar (.int 1)
  have built : Evaluates binding mapForm oneEntry := by
    have item : Evaluates binding (variableForm "x") (binding "x") := .bound rfl (by decide)
    exact .map rfl mapForm_hasEntries (.cons item .nil)
  refine ⟨⟨by decide, binding, matches_mapForm rfl, built, ?_⟩, ⟨by decide, binding, .scalar rfl, ?_⟩⟩
  · intro kept
    have same : oneEntry = twoEntries := built.unique kept
    have noSecond := congrFun (Datum.map.inj same) (.atom "b")
    cases noSecond
  · intro kept
    have isTrue : Evaluates binding (constantForm .literal (.bool true)) (.scalar (.atom "true")) :=
      .scalar rfl
    cases isTrue.unique kept

end StyleAudit
