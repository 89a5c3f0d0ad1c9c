import StyleAudit.Proofs.Expression.Instance
import StyleAudit.Rule.WithElse

/-!
# Patterns that catch every value

`Node.isCatchAll` holds of a variable and of `=` with a variable on one side. The
pattern on the other side still has to match, so such a pattern catches every value
only when it is made of variables alone, and otherwise exactly what is caught by that
other side (`isCatchAll_catchesWhen`).
-/

namespace StyleAudit

/-! ## Struct patterns -/

/-- The key under which a struct holds its name. -/
def structKey : String := "__struct__"

namespace Node

/-- The pair of a map that says which struct it is. -/
def structPair (span : Span) (name : String) : Node :=
  ⟨.pair, span, [], [⟨.atom, span, [("value", .one (.text structKey))], []⟩,
    ⟨.atom, span, [("value", .one (.text name))], []⟩]⟩

mutual

/-- The pattern with its structs as what they are: maps that hold the name of the
struct under a key of its own. -/
def withoutStructs : Node → Node
  | ⟨.struct, span, attributes, children⟩ =>
    ⟨.map, span, attributes,
      structPair span (Node.name ⟨.struct, span, attributes, children⟩) ::
        withoutStructsAll children⟩
  | ⟨kind, span, attributes, children⟩ => ⟨kind, span, attributes, withoutStructsAll children⟩
  termination_by structural n => n

def withoutStructsAll : List Node → List Node
  | [] => []
  | n :: rest => withoutStructs n :: withoutStructsAll rest
  termination_by structural ns => ns

end

/-- The pattern matches the value under some binding of its variables. -/
def Catches (pattern : Node) (value : Datum) : Prop :=
  ∃ binding, Matches binding pattern.withoutStructs value

variable {n pattern : Node} {value : Datum} {binding : Binding}

theorem withoutStructsAll_eq_map (ns : List Node) :
    withoutStructsAll ns = ns.map withoutStructs := by
  induction ns with
  | nil => rfl
  | cons n rest inductionHypothesis =>
      rw [withoutStructsAll, inductionHypothesis, List.map_cons]

theorem withoutStructs_of_ne (noStruct : n.kind ≠ .struct) :
    n.withoutStructs = { n with children := n.children.map withoutStructs } := by
  obtain ⟨kind, span, attributes, children⟩ := n
  cases kind with
  | struct => exact absurd rfl noStruct
  | _ =>
      rw [withoutStructs, withoutStructsAll_eq_map]
      exact nofun

theorem varName?_withoutStructs (n : Node) : n.withoutStructs.varName? = n.varName? := by
  by_cases isStruct : n.kind = .struct
  · obtain ⟨kind, span, attributes, children⟩ := n
    cases isStruct
    rfl
  · rw [withoutStructs_of_ne isStruct]
    rfl

/-- The same variables stand in the pattern. -/
theorem names_withoutStructs (n : Node) : n.withoutStructs.names = n.names := by
  induction n using childInduction with
  | step n inductionHypothesis =>
      have below : (n.children.map withoutStructs).flatMap names = n.children.flatMap names := by
        rw [List.flatMap_map]
        exact List.flatMap_congr inductionHypothesis
      rw [names_eq, varName?_withoutStructs, names_eq n]
      by_cases isStruct : n.kind = .struct
      · obtain ⟨kind, span, attributes, children⟩ := n
        cases isStruct
        rw [withoutStructs, withoutStructsAll_eq_map, List.flatMap_cons]
        exact congrArg _ below
      · rw [withoutStructs_of_ne isStruct, below]

/-- A struct pattern matches structs of its name only. -/
theorem exists_items_of_struct (isStruct : n.kind = .struct)
    (holds : Matches binding n.withoutStructs value) :
    ∃ items, value = .map items ∧
      items (.atom structKey) = some (.scalar (.atom n.name)) := by
  obtain ⟨kind, span, attributes, children⟩ := n
  cases isStruct
  rw [withoutStructs] at holds
  obtain ⟨entries, items, rfl, pairs, found, each⟩ := matches_iff.mp holds
  obtain ⟨entry, rest, isPair, _, rfl⟩ := List.forall₂_cons_left_iff.mp pairs
  cases isPair
  obtain ⟨item, isItem⟩ := Option.isSome_iff_exists.mp (found _ List.mem_cons_self)
  obtain ⟨scalar, stands, rfl⟩ :=
    (each _ List.mem_cons_self item isItem).exists_scalar (Or.inl rfl)
  cases stands
  exact ⟨items, rfl, isItem⟩

/-! ## Variables joined by `=` -/

/-- The pattern is made of variables by `=`. -/
inductive JoinsVariables : Node → Prop
  | single {n : Node} (named : n.varName?.isSome = true) : JoinsVariables n
  | both {n left right : Node} (isMatch : n.kind = .matchExpr)
      (sides : n.children = [left, right]) (first : JoinsVariables left)
      (second : JoinsVariables right) : JoinsVariables n

/-- The sides of a pattern are those of its form without structs. -/
theorem exists_sides_of_withoutStructs (isMatch : n.kind = .matchExpr) {first second : Node}
    (sides : n.withoutStructs.children = [first, second]) :
    ∃ left right, n.children = [left, right] ∧ first = left.withoutStructs ∧
      second = right.withoutStructs := by
  rw [withoutStructs_of_ne (by rw [isMatch]; decide)] at sides
  obtain ⟨left, rest, children, rfl, later⟩ := List.map_eq_cons_iff.mp sides
  obtain ⟨right, last, rfl, rfl, noMore⟩ := List.map_eq_cons_iff.mp later
  cases List.map_eq_nil_iff.mp noMore
  exact ⟨left, right, children, rfl, rfl⟩

/-- A value of a sort that no pattern names is matched by variables only. -/
theorem joinsVariables_of_catches_other {number : Nat}
    (holds : Matches binding n.withoutStructs (.scalar (.other number))) : n.JoinsVariables := by
  induction n using childInduction with
  | step n inductionHypothesis =>
      by_cases isStruct : n.kind = .struct
      · obtain ⟨_, impossible, _⟩ := exists_items_of_struct isStruct holds
        cases impossible
      · have sameKind : n.withoutStructs.kind = n.kind := by rw [withoutStructs_of_ne isStruct]
        generalize isValue : Datum.scalar (.other number) = value at holds
        cases holds with
        | blank isBlank =>
            rw [varName?_withoutStructs] at isBlank
            exact .single (by rw [isBlank]; rfl)
        | bound named =>
            rw [varName?_withoutStructs] at named
            exact .single (by rw [named]; rfl)
        | scalar stands =>
            cases isValue
            exact absurd rfl (ne_other_of_scalar? stands number)
        | tuple => cases isValue
        | list => cases isValue
        | map => cases isValue
        | both isMatch sides first second =>
            subst isValue
            rw [sameKind] at isMatch
            obtain ⟨left, right, children, rfl, rfl⟩ := exists_sides_of_withoutStructs isMatch sides
            exact .both isMatch children
              (inductionHypothesis left (by simp [children]) first)
              (inductionHypothesis right (by simp [children]) second)

theorem JoinsVariables.kind_eq (joins : n.JoinsVariables) :
    n.kind = .var ∨ n.kind = .matchExpr := by
  cases joins with
  | single named =>
      obtain ⟨name, named⟩ := Option.isSome_iff_exists.mp named
      exact Or.inl (kind_of_varName? named)
  | both isMatch => exact Or.inr isMatch

/-- Variables joined by `=` match every value, when each of them is bound to it. -/
theorem JoinsVariables.matches (joins : n.JoinsVariables) (value : Datum) :
    Matches (fun _ => value) n.withoutStructs value := by
  induction joins with
  | @single n named =>
      obtain ⟨name, isName⟩ := Option.isSome_iff_exists.mp named
      rw [← varName?_withoutStructs] at isName
      by_cases blank : name = "_"
      · subst blank
        exact .blank isName
      · exact .bound isName blank
  | @both n left right isMatch sides _ _ first second =>
      have children := withoutStructs_of_ne (n := n) (by rw [isMatch]; decide)
      rw [children]
      exact .both isMatch (by rw [sides]; rfl) first second

theorem catches_all_iff : (∀ value, pattern.Catches value) ↔ pattern.JoinsVariables := by
  constructor
  · intro all
    obtain ⟨binding, holds⟩ := all (.scalar (.other 0))
    exact joinsVariables_of_catches_other holds
  · intro joins value
    exact ⟨fun _ => value, joins.matches value⟩

/-! ## A variable on one side -/

theorem boundSide?_isSome_iff {left right : Node} :
    (boundSide? [left, right]).isSome = true ↔ left.kind = .var ∨ right.kind = .var := by
  rw [boundSide?]
  by_cases onLeft : left.kind = .var
  · simp [onLeft]
  · by_cases onRight : right.kind = .var
    · simp [onLeft, onRight]
    · simp [onLeft, onRight]

/-- The test sees variables, and the matches with a variable on one of their sides. -/
theorem isCatchAll_iff : pattern.isCatchAll = true ↔
    pattern.kind = .var ∨
      pattern.kind = .matchExpr ∧ (boundSide? pattern.children).isSome = true := by
  obtain ⟨kind, span, attributes, children⟩ := pattern
  cases kind with
  | matchExpr =>
      rw [isCatchAll, reduced]
      cases bound : boundSide? children with
      | none => simp
      | some side =>
          have isVar : side.kind = .var := kind_of_boundSide? bound
          simp [isVar]
  | _ => simp [isCatchAll, reduced]

/-- No name stands twice in the pattern. The variable `_` is no name. -/
def HasDistinctNames (pattern : Node) : Prop :=
  (pattern.names.filter (· ≠ "_")).Nodup

/-- A variable can be bound to the whole of what the pattern next to it matches. -/
theorem catches_match_iff {side other : Node} {name : String}
    (isMatch : pattern.kind = .matchExpr)
    (sides : pattern.children = [side, other] ∨ pattern.children = [other, side])
    (named : side.varName? = some name) (fresh : name ≠ "_" → name ∉ other.names) :
    pattern.Catches value ↔ other.Catches value := by
  have split : ∀ binding, Matches binding pattern.withoutStructs value ↔
      Matches binding side.withoutStructs value ∧
        Matches binding other.withoutStructs value := by
    intro binding
    rw [withoutStructs_of_ne (by rw [isMatch]; decide)]
    constructor
    · intro holds
      have matched := matches_iff.mp holds
      simp only [isMatch] at matched
      obtain ⟨left, right, children, first, second⟩ := matched
      rcases sides with sides | sides
      · rw [sides] at children
        cases children
        exact ⟨first, second⟩
      · rw [sides] at children
        cases children
        exact ⟨second, first⟩
    · rintro ⟨bound, rest⟩
      rcases sides with sides | sides
      · exact .both isMatch (by rw [sides]; rfl) bound rest
      · exact .both isMatch (by rw [sides]; rfl) rest bound
  constructor
  · rintro ⟨binding, holds⟩
    exact ⟨binding, ((split binding).mp holds).2⟩
  · rintro ⟨binding, holds⟩
    refine ⟨fun found => if found = name then value else binding found, (split _).mpr ⟨?_, ?_⟩⟩
    · rw [← varName?_withoutStructs] at named
      by_cases blank : name = "_"
      · subst blank
        exact .blank named
      · exact matches_iff.mpr (by
          rw [kind_of_varName? named]
          exact ⟨name, named, Or.inr (if_pos rfl).symm⟩)
    · refine holds.of_agree ?_
      intro found isName used
      rw [names_withoutStructs] at isName
      rw [if_neg]
      rintro rfl
      exact fresh used isName

/-! ## Catch-all patterns -/

/-- A pattern of variables, atoms, literals, tuples, lists, structs and `=`. -/
inductive IsPattern : Node → Prop
  | single {n : Node} (named : n.varName?.isSome = true) : IsPattern n
  | scalar {n : Node} (stands : n.scalar?.isSome = true) : IsPattern n
  | sequence {n : Node} (isSequence : n.kind = .tuple ∨ n.kind = .list)
      (items : ∀ child ∈ n.children, IsPattern child) : IsPattern n
  | struct {n : Node} {entries : List (Scalar × Node)} (isStruct : n.kind = .struct)
      (pairs : n.HasEntries entries) (items : ∀ entry ∈ entries, IsPattern entry.2) : IsPattern n
  | both {n left right : Node} (isMatch : n.kind = .matchExpr)
      (sides : n.children = [left, right]) (first : IsPattern left) (second : IsPattern right) :
      IsPattern n

/-- When a pattern that may be a catch-all catches every value. -/
structure CatchesWhen (pattern : Node) : Prop where
  /-- It does if it is made of variables alone, and only then. -/
  exact : (∀ value, pattern.Catches value) ↔ pattern.JoinsVariables
  /-- A catch-all that is no variable catches what the pattern next to a variable does. -/
  beside : pattern.isCatchAll = true → pattern.kind = .var ∨
    ∃ side other, pattern.kind = .matchExpr ∧
      (pattern.children = [side, other] ∨ pattern.children = [other, side]) ∧
      side.kind = .var ∧ ∀ value, pattern.Catches value ↔ other.Catches value
  /-- The branch of a catch-all is left out of the order of branches. -/
  leftOut : pattern.isCatchAll = true → ∀ scope targets branch body,
    branch.branchParts? = some (pattern, body) →
      WithElse.clauseIndex? scope targets branch = none
  /-- Of the patterns that catch every value only those between two `=` are no
  catch-alls. -/
  missed : pattern.JoinsVariables → pattern.isCatchAll = false →
    ∃ left right, pattern.children = [left, right] ∧ left.kind = .matchExpr ∧
      right.kind = .matchExpr

theorem IsPattern.exists_varName? (isPattern : n.IsPattern) (isVar : n.kind = .var) :
    ∃ name, n.varName? = some name := by
  cases isPattern with
  | single named => exact Option.isSome_iff_exists.mp named
  | scalar stands =>
      obtain ⟨scalar, stands⟩ := Option.isSome_iff_exists.mp stands
      rcases kind_of_scalar? stands with other | other <;> cases isVar.symm.trans other
  | sequence isSequence => rcases isSequence with other | other <;> cases isVar.symm.trans other
  | struct isStruct => cases isVar.symm.trans isStruct
  | both isMatch => cases isVar.symm.trans isMatch

theorem IsPattern.exists_sides (isPattern : n.IsPattern) (isMatch : n.kind = .matchExpr) :
    ∃ left right, n.children = [left, right] ∧ left.IsPattern ∧ right.IsPattern := by
  cases isPattern with
  | single named =>
      obtain ⟨name, named⟩ := Option.isSome_iff_exists.mp named
      cases isMatch.symm.trans (kind_of_varName? named)
  | scalar stands =>
      obtain ⟨scalar, stands⟩ := Option.isSome_iff_exists.mp stands
      rcases kind_of_scalar? stands with other | other <;> cases isMatch.symm.trans other
  | sequence isSequence =>
      rcases isSequence with other | other <;> cases isMatch.symm.trans other
  | struct isStruct => cases isMatch.symm.trans isStruct
  | both _ sides first second => exact ⟨_, _, sides, first, second⟩

/-- The name of one side of a match does not stand in the other. -/
theorem HasDistinctNames.not_mem {left right : Node} (distinct : pattern.HasDistinctNames)
    (isMatch : pattern.kind = .matchExpr) (sides : pattern.children = [left, right])
    {name : String} (used : name ≠ "_") : ¬(name ∈ left.names ∧ name ∈ right.names) := by
  rintro ⟨onLeft, onRight⟩
  have noName : pattern.varName? = none := by
    rw [varName?, if_neg (by rw [isMatch]; decide)]
  rw [HasDistinctNames, names_eq, noName, sides] at distinct
  simp only [Option.toList_none, List.nil_append, List.flatMap_cons, List.flatMap_nil,
    List.append_nil, List.filter_append] at distinct
  have kept : ∀ {names : List String}, name ∈ names → name ∈ names.filter (· ≠ "_") :=
    fun member => List.mem_filter.mpr ⟨member, decide_eq_true used⟩
  exact (List.nodup_append.mp distinct).2.2 name (kept onLeft) name (kept onRight) rfl

/-- What joins variables and is missed by the test is a match of two matches. -/
theorem missed_of_joinsVariables (joins : pattern.JoinsVariables)
    (missed : pattern.isCatchAll = false) :
    ∃ left right, pattern.children = [left, right] ∧ left.kind = .matchExpr ∧
      right.kind = .matchExpr := by
  have noCatchAll : ¬(pattern.kind = .var ∨
      pattern.kind = .matchExpr ∧ (boundSide? pattern.children).isSome = true) := by
    rw [← isCatchAll_iff, missed]
    exact Bool.false_ne_true
  cases joins with
  | single named =>
      obtain ⟨name, named⟩ := Option.isSome_iff_exists.mp named
      exact absurd (Or.inl (kind_of_varName? named)) noCatchAll
  | @both _ left right isMatch sides first second =>
      have unbound : ¬(left.kind = .var ∨ right.kind = .var) := by
        rw [← boundSide?_isSome_iff, ← sides]
        exact fun bound => noCatchAll (Or.inr ⟨isMatch, bound⟩)
      rw [not_or] at unbound
      exact ⟨left, right, sides, first.kind_eq.resolve_left unbound.1,
        second.kind_eq.resolve_left unbound.2⟩

/-- A catch-all that is no variable catches what the pattern next to its variable does. -/
theorem IsPattern.catches_beside (isPattern : pattern.IsPattern)
    (distinct : pattern.HasDistinctNames) (isMatch : pattern.kind = .matchExpr)
    (bound : (boundSide? pattern.children).isSome = true) :
    ∃ side other, (pattern.children = [side, other] ∨ pattern.children = [other, side]) ∧
      side.kind = .var ∧ ∀ value, pattern.Catches value ↔ other.Catches value := by
  obtain ⟨left, right, sides, first, second⟩ := isPattern.exists_sides isMatch
  rw [sides, boundSide?_isSome_iff] at bound
  rcases bound with onLeft | onRight
  · obtain ⟨name, named⟩ := first.exists_varName? onLeft
    refine ⟨left, right, Or.inl sides, onLeft, fun value => ?_⟩
    refine catches_match_iff isMatch (Or.inl sides) named fun used onRight => ?_
    exact distinct.not_mem isMatch sides used ⟨mem_names_of_varName? named, onRight⟩
  · obtain ⟨name, named⟩ := second.exists_varName? onRight
    refine ⟨right, left, Or.inr sides, onRight, fun value => ?_⟩
    refine catches_match_iff isMatch (Or.inr sides) named fun used onLeft => ?_
    exact distinct.not_mem isMatch sides used ⟨onLeft, mem_names_of_varName? named⟩

/-- A catch-all catches every value exactly if it is made of variables, and what stands
next to its variable otherwise. -/
theorem isCatchAll_catchesWhen (isPattern : pattern.IsPattern)
    (distinct : pattern.HasDistinctNames) : pattern.CatchesWhen := by
  refine ⟨catches_all_iff, ?_, ?_, missed_of_joinsVariables⟩
  · intro catchAll
    rcases isCatchAll_iff.mp catchAll with isVar | ⟨isMatch, bound⟩
    · exact Or.inl isVar
    · obtain ⟨side, other, sides, isVar, catches⟩ :=
        isPattern.catches_beside distinct isMatch bound
      exact Or.inr ⟨side, other, isMatch, sides, isVar, catches⟩
  · intro catchAll scope targets branch body parts
    rw [WithElse.clauseIndex?, parts]
    exact if_pos catchAll

/-! ## A bound struct -/

/-- A variable next to the struct `B` with a variable under the key `:a`. -/
def boundStruct : Node :=
  plainForm .matchExpr [] [variableForm "x", plainForm .struct [("name", .one (.text "B"))]
    [plainForm .pair [] [constantForm .atom (.text "a"), variableForm "y"]]]

theorem boundStruct_isPattern : boundStruct.IsPattern := by
  have entries : (plainForm .struct [("name", .one (.text "B"))]
      [plainForm .pair [] [constantForm .atom (.text "a"), variableForm "y"]]).HasEntries
        [(.atom "a", variableForm "y")] := .cons rfl .nil
  refine .both rfl rfl (.single rfl) (.struct rfl entries ?_)
  intro entry member
  cases List.mem_singleton.mp member
  exact .single rfl

/-- The bound struct is a catch-all and does not catch a number. -/
theorem isCatchAll_not_catches : boundStruct.isCatchAll = true ∧ boundStruct.IsPattern ∧
    boundStruct.HasDistinctNames ∧ ¬boundStruct.Catches (.scalar (.int 1)) := by
  refine ⟨by decide, boundStruct_isPattern, by unfold HasDistinctNames; decide, ?_⟩
  rintro ⟨binding, holds⟩
  obtain ⟨left, right, sides, _, struct⟩ := matches_iff.mp holds
  cases sides
  obtain ⟨items, impossible, _⟩ := exists_items_of_struct rfl struct
  cases impossible

theorem isCatchAll_catchesWhen_struct : boundStruct.IsPattern ∧ boundStruct.HasDistinctNames ∧
    boundStruct.CatchesWhen ∧ ¬∀ value, boundStruct.Catches value := by
  have distinct : boundStruct.HasDistinctNames := by
    unfold HasDistinctNames
    decide
  have catchesWhen := isCatchAll_catchesWhen boundStruct_isPattern distinct
  refine ⟨boundStruct_isPattern, distinct, catchesWhen, ?_⟩
  intro all
  cases catchesWhen.exact.mp all with
  | single named => cases named
  | both _ sides _ second =>
      cases sides
      cases second with
      | single named => cases named
      | both isMatch => cases isMatch

end Node
end StyleAudit
