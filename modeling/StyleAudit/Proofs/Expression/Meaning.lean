import Mathlib.Data.List.Forall2
import StyleAudit.Proofs.Outcome
import StyleAudit.Proofs.Tree.Preorder

/-!
# The meaning of patterns and expressions

Variables, atoms, literals, tuples, lists, maps and `=` have the same notation as
patterns and as expressions. `Matches` says which values a pattern matches under a
binding of its variables, and `Evaluates` which value an expression has. An expression
has at most one (`Evaluates.unique`), while a pattern that holds a map matches all maps
that have more keys as well (`Matches.extend`).
-/

namespace StyleAudit

/-! ## Values -/

/-- A value without parts. True, false and nil are atoms. Values of other sorts are told
apart by numbers, and so are keys of maps that have parts. -/
inductive Scalar
  | atom (name : String)
  | int (value : Int)
  | float (value : Binary64)
  | text (value : String)
  | other (number : Nat)
  deriving DecidableEq, Repr

/-- A value. A map has a value for some of the keys. -/
inductive Datum
  | scalar (value : Scalar)
  | tuple (items : List Datum)
  | list (items : List Datum)
  | map (items : Scalar → Option Datum)

/-- What variables are bound to. -/
abbrev Binding := String → Datum

/-- The map of a list of entries; the later ones win. -/
def Datum.ofEntries (entries : List (Scalar × Datum)) : Datum :=
  .map fun key => entries.reverse.lookup key

def Scalar.ofLiteral : Literal → Scalar
  | .null => .atom "nil"
  | .bool true => .atom "true"
  | .bool false => .atom "false"
  | .int value => .int value
  | .float value => .float value
  | .text value => .text value

namespace Node

/-- The value that an atom or a literal stands for. -/
def scalar? (n : Node) : Option Scalar :=
  match n.kind, n.attributes.lookup "value" with
  | .atom, some (.one (.text name)) => some (.atom name)
  | .literal, some (.one literal) => some (.ofLiteral literal)
  | _, _ => none

/-- The name of a variable. -/
def varName? (n : Node) : Option String :=
  if n.kind = .var then (n.attributes.lookup "name").bind Attribute.text? else none

/-- The key and the item of a pair. -/
def keyedItem? (pair : Node) : Option (Scalar × Node) :=
  match pair.kind, pair.children with
  | .pair, [key, item] => key.scalar?.map fun scalar => (scalar, item)
  | _, _ => none

/-- The pairs of a map are those entries. -/
def HasEntries (n : Node) (entries : List (Scalar × Node)) : Prop :=
  List.Forall₂ (fun pair entry => keyedItem? pair = some entry) n.children entries

end Node

/-- The pattern matches the value, and its variables are bound like that. The variable
`_` is not bound; a map needs to have the keys of the pattern at least. -/
inductive Matches (binding : Binding) : Node → Datum → Prop
  | blank {n : Node} {value : Datum} (isBlank : n.varName? = some "_") : Matches binding n value
  | bound {n : Node} {name : String} (named : n.varName? = some name) (used : name ≠ "_") :
      Matches binding n (binding name)
  | scalar {n : Node} {scalar : Scalar} (stands : n.scalar? = some scalar) :
      Matches binding n (.scalar scalar)
  | tuple {n : Node} {values : List Datum} (isTuple : n.kind = .tuple)
      (items : List.Forall₂ (Matches binding) n.children values) :
      Matches binding n (.tuple values)
  | list {n : Node} {values : List Datum} (isList : n.kind = .list)
      (items : List.Forall₂ (Matches binding) n.children values) :
      Matches binding n (.list values)
  | map {n : Node} {entries : List (Scalar × Node)} {items : Scalar → Option Datum}
      (isMap : n.kind = .map) (pairs : n.HasEntries entries)
      (found : ∀ entry ∈ entries, (items entry.1).isSome)
      (each : ∀ entry ∈ entries, ∀ value, items entry.1 = some value →
        Matches binding entry.2 value) :
      Matches binding n (.map items)
  | both {n left right : Node} {value : Datum} (isMatch : n.kind = .matchExpr)
      (sides : n.children = [left, right]) (first : Matches binding left value)
      (second : Matches binding right value) : Matches binding n value

/-- The expression has the value under the binding. The left side of `=` is a pattern
for the value of the right side and binds its variables anew. -/
inductive Evaluates (binding : Binding) : Node → Datum → Prop
  | bound {n : Node} {name : String} (named : n.varName? = some name) (used : name ≠ "_") :
      Evaluates binding n (binding name)
  | scalar {n : Node} {scalar : Scalar} (stands : n.scalar? = some scalar) :
      Evaluates binding n (.scalar scalar)
  | tuple {n : Node} {values : List Datum} (isTuple : n.kind = .tuple)
      (items : List.Forall₂ (Evaluates binding) n.children values) :
      Evaluates binding n (.tuple values)
  | list {n : Node} {values : List Datum} (isList : n.kind = .list)
      (items : List.Forall₂ (Evaluates binding) n.children values) :
      Evaluates binding n (.list values)
  | map {n : Node} {entries : List (Scalar × Node)} {values : List Datum}
      (isMap : n.kind = .map) (pairs : n.HasEntries entries)
      (items : List.Forall₂ (Evaluates binding) (entries.map (·.2)) values) :
      Evaluates binding n (.ofEntries ((entries.map (·.1)).zip values))
  | rebind {n left right : Node} {value : Datum} {rebound : Binding}
      (isMatch : n.kind = .matchExpr) (sides : n.children = [left, right])
      (second : Evaluates binding right value) (first : Matches rebound left value) :
      Evaluates binding n value

variable {binding : Binding} {n pair : Node} {value : Datum}

/-! ## Readings of nodes -/

namespace Node

theorem kind_of_varName? {name : String} (named : n.varName? = some name) : n.kind = .var := by
  by_contra other
  rw [varName?, if_neg other] at named
  cases named

theorem kind_of_scalar? {scalar : Scalar} (stands : n.scalar? = some scalar) :
    n.kind = .atom ∨ n.kind = .literal := by
  rw [scalar?] at stands
  split at stands
  · rename_i isAtom _
    exact Or.inl isAtom
  · rename_i isLiteral _
    exact Or.inr isLiteral
  · cases stands

/-- Atoms are written with their name and literals with their value. -/
theorem scalar?_eq_some_iff {scalar : Scalar} : n.scalar? = some scalar ↔
    ∃ literal, n.attributes.lookup "value" = some (.one literal) ∧
      (n.kind = .atom ∧ (∃ name, literal = .text name ∧ scalar = .atom name) ∨
        n.kind = .literal ∧ scalar = .ofLiteral literal) := by
  constructor
  · intro stands
    rw [scalar?] at stands
    split at stands
    · rename_i name isAtom found
      cases stands
      exact ⟨.text name, found, Or.inl ⟨isAtom, name, rfl, rfl⟩⟩
    · rename_i literal isLiteral found
      cases stands
      exact ⟨literal, found, Or.inr ⟨isLiteral, rfl⟩⟩
    · cases stands
  · rintro ⟨literal, found, ⟨isAtom, name, rfl, rfl⟩ | ⟨isLiteral, rfl⟩⟩
    · rw [scalar?, isAtom, found]
    · rw [scalar?, isLiteral, found]

theorem scalar?_eq_none (noAtom : n.kind ≠ .atom) (noLiteral : n.kind ≠ .literal) :
    n.scalar? = none := by
  cases stands : n.scalar? with
  | none => rfl
  | some scalar =>
      rcases kind_of_scalar? stands with isAtom | isLiteral
      · exact absurd isAtom noAtom
      · exact absurd isLiteral noLiteral

theorem ne_other_of_scalar? {scalar : Scalar} (stands : n.scalar? = some scalar) (number : Nat) :
    scalar ≠ .other number := by
  rw [scalar?] at stands
  split at stands
  · cases stands
    exact nofun
  · rename_i literal _ _
    cases stands
    rcases literal with _ | (_ | _) | _ | _ | _ <;> exact nofun
  · cases stands

theorem keyedItem?_eq_some_iff {entry : Scalar × Node} :
    pair.keyedItem? = some entry ↔
      pair.kind = .pair ∧
        ∃ key, pair.children = [key, entry.2] ∧ key.scalar? = some entry.1 := by
  constructor
  · intro found
    rw [keyedItem?] at found
    split at found
    · rename_i key item isPair children
      obtain ⟨scalar, stands, rfl⟩ := Option.map_eq_some_iff.mp found
      exact ⟨isPair, key, children, stands⟩
    · cases found
  · rintro ⟨isPair, key, children, stands⟩
    rw [keyedItem?, isPair, children]
    exact Option.map_eq_some_iff.mpr ⟨entry.1, stands, rfl⟩

/-- A map is written with one list of entries. -/
theorem HasEntries.unique {entries others : List (Scalar × Node)} (has : n.HasEntries entries)
    (alsoHas : n.HasEntries others) : entries = others := by
  have determined : Relator.RightUnique fun pair entry => keyedItem? pair = some entry := by
    intro pair entry other found alsoFound
    exact Option.some.inj (found.symm.trans alsoFound)
  exact List.right_unique_forall₂' determined has alsoHas

theorem HasEntries.exists_pair {entries : List (Scalar × Node)} (has : n.HasEntries entries)
    {entry : Scalar × Node} (member : entry ∈ entries) :
    ∃ pair ∈ n.children, pair.keyedItem? = some entry :=
  Outcome.exists_of_forall₂_of_mem_right has member

theorem HasEntries.ne_other {entries : List (Scalar × Node)} (has : n.HasEntries entries)
    {entry : Scalar × Node} (member : entry ∈ entries) (number : Nat) :
    entry.1 ≠ .other number := by
  obtain ⟨pair, _, found⟩ := has.exists_pair member
  obtain ⟨_, key, _, stands⟩ := keyedItem?_eq_some_iff.mp found
  exact ne_other_of_scalar? stands number

/-- The item of an entry stands below the map. -/
theorem HasEntries.exists_child {entries : List (Scalar × Node)} (has : n.HasEntries entries)
    {entry : Scalar × Node} (member : entry ∈ entries) :
    ∃ pair ∈ n.children, entry.2 ∈ pair.preorder := by
  obtain ⟨pair, isPair, found⟩ := has.exists_pair member
  obtain ⟨_, key, children, _⟩ := keyedItem?_eq_some_iff.mp found
  exact ⟨pair, isPair, mem_preorder_of_mem_children (by rw [children]; simp)⟩

end Node

/-! ## Readings of matches and values -/

/-- What it takes to match a pattern, by the kind of the pattern. Every other
statement about matching is read off here. -/
theorem matches_iff : Matches binding n value ↔
    match n.kind with
    | .var => ∃ name, n.varName? = some name ∧ (name = "_" ∨ value = binding name)
    | .atom | .literal => ∃ scalar, n.scalar? = some scalar ∧ value = .scalar scalar
    | .tuple => ∃ values, value = .tuple values ∧ List.Forall₂ (Matches binding) n.children values
    | .list => ∃ values, value = .list values ∧ List.Forall₂ (Matches binding) n.children values
    | .map => ∃ entries items, value = .map items ∧ n.HasEntries entries ∧
        (∀ entry ∈ entries, (items entry.1).isSome) ∧
        ∀ entry ∈ entries, ∀ value, items entry.1 = some value → Matches binding entry.2 value
    | .matchExpr => ∃ left right, n.children = [left, right] ∧ Matches binding left value ∧
        Matches binding right value
    | _ => False := by
  constructor
  · intro holds
    cases holds with
    | blank isBlank =>
        rw [Node.kind_of_varName? isBlank]
        exact ⟨"_", isBlank, Or.inl rfl⟩
    | @bound _ name named used =>
        rw [Node.kind_of_varName? named]
        exact ⟨name, named, Or.inr rfl⟩
    | @scalar _ scalar stands =>
        rcases Node.kind_of_scalar? stands with isAtom | isLiteral
        · rw [isAtom]
          exact ⟨scalar, stands, rfl⟩
        · rw [isLiteral]
          exact ⟨scalar, stands, rfl⟩
    | @tuple _ values isTuple items =>
        rw [isTuple]
        exact ⟨values, rfl, items⟩
    | @list _ values isList items =>
        rw [isList]
        exact ⟨values, rfl, items⟩
    | @map _ entries items isMap pairs found each =>
        rw [isMap]
        exact ⟨entries, items, rfl, pairs, found, each⟩
    | @both _ left right _ isMatch sides first second =>
        rw [isMatch]
        exact ⟨left, right, sides, first, second⟩
  · intro holds
    split at holds
    · obtain ⟨name, named, rfl | rfl⟩ := holds
      · exact .blank named
      · by_cases blank : name = "_"
        · subst blank
          exact .blank named
        · exact .bound named blank
    · obtain ⟨scalar, stands, rfl⟩ := holds
      exact .scalar stands
    · obtain ⟨scalar, stands, rfl⟩ := holds
      exact .scalar stands
    · rename_i isTuple
      obtain ⟨values, rfl, items⟩ := holds
      exact .tuple isTuple items
    · rename_i isList
      obtain ⟨values, rfl, items⟩ := holds
      exact .list isList items
    · rename_i isMap
      obtain ⟨entries, items, rfl, pairs, found, each⟩ := holds
      exact .map isMap pairs found each
    · rename_i isMatch
      obtain ⟨left, right, sides, first, second⟩ := holds
      exact .both isMatch sides first second
    · exact holds.elim

/-- What it takes to have a value, by the kind of the expression. -/
theorem evaluates_iff : Evaluates binding n value ↔
    match n.kind with
    | .var => ∃ name, n.varName? = some name ∧ name ≠ "_" ∧ value = binding name
    | .atom | .literal => ∃ scalar, n.scalar? = some scalar ∧ value = .scalar scalar
    | .tuple => ∃ values, value = .tuple values ∧
        List.Forall₂ (Evaluates binding) n.children values
    | .list => ∃ values, value = .list values ∧
        List.Forall₂ (Evaluates binding) n.children values
    | .map => ∃ entries values, value = .ofEntries ((entries.map (·.1)).zip values) ∧
        n.HasEntries entries ∧ List.Forall₂ (Evaluates binding) (entries.map (·.2)) values
    | .matchExpr => ∃ left right, n.children = [left, right] ∧ Evaluates binding right value ∧
        ∃ rebound, Matches rebound left value
    | _ => False := by
  constructor
  · intro holds
    cases holds with
    | @bound _ name named used =>
        rw [Node.kind_of_varName? named]
        exact ⟨name, named, used, rfl⟩
    | @scalar _ scalar stands =>
        rcases Node.kind_of_scalar? stands with isAtom | isLiteral
        · rw [isAtom]
          exact ⟨scalar, stands, rfl⟩
        · rw [isLiteral]
          exact ⟨scalar, stands, rfl⟩
    | @tuple _ values isTuple items =>
        rw [isTuple]
        exact ⟨values, rfl, items⟩
    | @list _ values isList items =>
        rw [isList]
        exact ⟨values, rfl, items⟩
    | @map _ entries values isMap pairs items =>
        rw [isMap]
        exact ⟨entries, values, rfl, pairs, items⟩
    | @rebind _ left right _ rebound isMatch sides second first =>
        rw [isMatch]
        exact ⟨left, right, sides, second, rebound, first⟩
  · intro holds
    split at holds
    · obtain ⟨name, named, used, rfl⟩ := holds
      exact .bound named used
    · obtain ⟨scalar, stands, rfl⟩ := holds
      exact .scalar stands
    · obtain ⟨scalar, stands, rfl⟩ := holds
      exact .scalar stands
    · rename_i isTuple
      obtain ⟨values, rfl, items⟩ := holds
      exact .tuple isTuple items
    · rename_i isList
      obtain ⟨values, rfl, items⟩ := holds
      exact .list isList items
    · rename_i isMap
      obtain ⟨entries, values, rfl, pairs, items⟩ := holds
      exact .map isMap pairs items
    · rename_i isMatch
      obtain ⟨left, right, sides, second, rebound, first⟩ := holds
      exact .rebind isMatch sides second first
    · exact holds.elim

theorem Matches.exists_scalar (holds : Matches binding n value)
    (isScalar : n.kind = .atom ∨ n.kind = .literal) :
    ∃ scalar, n.scalar? = some scalar ∧ value = .scalar scalar := by
  have matched := matches_iff.mp holds
  rcases isScalar with isAtom | isLiteral
  · rwa [isAtom] at matched
  · rwa [isLiteral] at matched

theorem Evaluates.exists_scalar (evaluates : Evaluates binding n value)
    (isScalar : n.kind = .atom ∨ n.kind = .literal) :
    ∃ scalar, n.scalar? = some scalar ∧ value = .scalar scalar := by
  have read := evaluates_iff.mp evaluates
  rcases isScalar with isAtom | isLiteral
  · rwa [isAtom] at read
  · rwa [isLiteral] at read

/-! ## The value of an expression -/

/-- Under a binding an expression has at most one value. -/
theorem Evaluates.unique {other : Datum} (evaluates : Evaluates binding n value)
    (alsoEvaluates : Evaluates binding n other) : value = other := by
  induction n using Node.descendantInduction generalizing value other with
  | step n inductionHypothesis =>
      have again := evaluates_iff.mp alsoEvaluates
      have sameItems : ∀ {items : List Node} {values others : List Datum},
          (∀ item ∈ items, ∃ child ∈ n.children, item ∈ child.preorder) →
          List.Forall₂ (Evaluates binding) items values →
          List.Forall₂ (Evaluates binding) items others → values = others := by
        intro items values others below first second
        have equal : List.Forall₂ Eq values others := by
          refine Outcome.forall₂_join first second ?_
          intro item member _ _ _ here alsoHere
          obtain ⟨child, isChild, inside⟩ := below item member
          exact inductionHypothesis child isChild item inside here alsoHere
        rwa [List.forall₂_eq_eq_eq] at equal
      have childrenBelow : ∀ item ∈ n.children, ∃ child ∈ n.children, item ∈ child.preorder :=
        fun item member => ⟨item, member, Node.mem_preorder_self item⟩
      cases evaluates with
      | bound named used =>
          rw [Node.kind_of_varName? named] at again
          obtain ⟨name, alsoNamed, _, rfl⟩ := again
          cases named.symm.trans alsoNamed
          rfl
      | scalar stands =>
          obtain ⟨scalar, alsoStands, rfl⟩ :=
            alsoEvaluates.exists_scalar (Node.kind_of_scalar? stands)
          cases stands.symm.trans alsoStands
          rfl
      | tuple isTuple items =>
          rw [isTuple] at again
          obtain ⟨others, rfl, alsoItems⟩ := again
          rw [sameItems childrenBelow items alsoItems]
      | list isList items =>
          rw [isList] at again
          obtain ⟨others, rfl, alsoItems⟩ := again
          rw [sameItems childrenBelow items alsoItems]
      | @map _ entries _ isMap pairs items =>
          rw [isMap] at again
          obtain ⟨others, values, rfl, alsoPairs, alsoItems⟩ := again
          have sameEntries : entries = others := pairs.unique alsoPairs
          subst sameEntries
          have entriesBelow : ∀ item ∈ entries.map (·.2),
              ∃ child ∈ n.children, item ∈ child.preorder := by
            intro item member
            obtain ⟨entry, isEntry, rfl⟩ := List.mem_map.mp member
            exact pairs.exists_child isEntry
          rw [sameItems entriesBelow items alsoItems]
      | @rebind _ left right _ _ isMatch sides second _ =>
          rw [isMatch] at again
          obtain ⟨left', right', alsoSides, alsoSecond, _⟩ := again
          cases sides.symm.trans alsoSides
          have isChild : right ∈ n.children := by simp [sides]
          exact inductionHypothesis right isChild right (Node.mem_preorder_self right) second
            alsoSecond

/-! ## The variables of a tree -/

/-- The names of the variables of a tree, in source order. -/
def Node.names (n : Node) : List String :=
  n.preorder.filterMap varName?

theorem Node.names_eq (n : Node) :
    n.names = n.varName?.toList ++ n.children.flatMap names := by
  rw [names, preorder_eq, List.filterMap_cons, List.filterMap_flatMap]
  cases n.varName? <;> rfl

theorem Node.names_subset {m : Node} (inside : m ∈ n.preorder) : m.names ⊆ n.names := by
  intro name isName
  obtain ⟨v, isNode, named⟩ := List.mem_filterMap.mp isName
  exact List.mem_filterMap.mpr ⟨v, mem_preorder_trans isNode inside, named⟩

theorem Node.mem_names_of_varName? {name : String} (named : n.varName? = some name) :
    name ∈ n.names :=
  List.mem_filterMap.mpr ⟨n, mem_preorder_self n, named⟩

/-- What a pattern matches depends on the bindings of its variables only. -/
theorem Matches.of_agree {other : Binding} (holds : Matches binding n value)
    (agree : ∀ name ∈ n.names, name ≠ "_" → binding name = other name) :
    Matches other n value := by
  induction n using Node.descendantInduction generalizing value with
  | step n inductionHypothesis =>
      have below : ∀ child ∈ n.children, ∀ m ∈ child.preorder, ∀ {value : Datum},
          Matches binding m value → Matches other m value := by
        intro child member m inside value here
        refine inductionHypothesis child member m inside here ?_
        intro name isName
        exact agree name (Node.names_subset (Node.mem_preorder_trans inside
          (Node.mem_preorder_of_mem_children member)) isName)
      have items : ∀ {values : List Datum}, List.Forall₂ (Matches binding) n.children values →
          List.Forall₂ (Matches other) n.children values := fun each =>
        Outcome.forall₂_imp_mem each fun child member _ _ here =>
          below child member child (Node.mem_preorder_self child) here
      cases holds with
      | blank isBlank => exact .blank isBlank
      | bound named used =>
          rw [agree _ (Node.mem_names_of_varName? named) used]
          exact .bound named used
      | scalar stands => exact .scalar stands
      | tuple isTuple each => exact .tuple isTuple (items each)
      | list isList each => exact .list isList (items each)
      | @map _ entries found isMap pairs has each =>
          refine .map isMap pairs has ?_
          intro entry member item isItem
          obtain ⟨child, isChild, inside⟩ := pairs.exists_child member
          exact below child isChild entry.2 inside (each entry member item isItem)
      | @both _ left right _ isMatch sides first second =>
          have isLeft : left ∈ n.children := by simp [sides]
          have isRight : right ∈ n.children := by simp [sides]
          exact .both isMatch sides
            (below left isLeft left (Node.mem_preorder_self left) first)
            (below right isRight right (Node.mem_preorder_self right) second)

/-! ## Larger maps -/

mutual

/-- The value with one more entry in each of its maps. -/
def Datum.extend (key : Scalar) : Datum → Datum
  | .scalar value => .scalar value
  | .tuple items => .tuple (extendAll key items)
  | .list items => .list (extendAll key items)
  | .map items => .map fun other =>
    if other = key then some (.scalar key) else extendItem key (items other)
  termination_by structural value => value

def Datum.extendAll (key : Scalar) : List Datum → List Datum
  | [] => []
  | value :: rest => extend key value :: extendAll key rest
  termination_by structural values => values

def Datum.extendItem (key : Scalar) : Option Datum → Option Datum
  | none => none
  | some value => some (extend key value)
  termination_by structural value => value

end

theorem Datum.extendAll_eq_map (key : Scalar) (values : List Datum) :
    extendAll key values = values.map (extend key) := by
  induction values with
  | nil => rfl
  | cons value rest inductionHypothesis => rw [extendAll, inductionHypothesis, List.map_cons]

theorem Datum.extendItem_eq_map (key : Scalar) (value : Option Datum) :
    extendItem key value = value.map (extend key) := by
  cases value <;> rfl

/-- A pattern matches maps with a further key under the binding to such maps, unless it
asks for that key itself. -/
theorem Matches.extend (holds : Matches binding n value) (number : Nat) :
    Matches (fun name => (binding name).extend (.other number)) n
      (value.extend (.other number)) := by
  induction n using Node.descendantInduction generalizing value with
  | step n inductionHypothesis =>
      have items : ∀ {values : List Datum}, List.Forall₂ (Matches binding) n.children values →
          List.Forall₂ (Matches fun name => (binding name).extend (.other number)) n.children
            (values.map (Datum.extend (.other number))) := by
        intro values each
        rw [List.forall₂_map_right_iff]
        refine Outcome.forall₂_imp_mem each fun child member _ _ here => ?_
        exact inductionHypothesis child member child (Node.mem_preorder_self child) here
      cases holds with
      | blank isBlank => exact .blank isBlank
      | bound named used => exact .bound named used
      | scalar stands => exact .scalar stands
      | tuple isTuple each =>
          rw [Datum.extend, Datum.extendAll_eq_map]
          exact .tuple isTuple (items each)
      | list isList each =>
          rw [Datum.extend, Datum.extendAll_eq_map]
          exact .list isList (items each)
      | @map _ entries found isMap pairs has each =>
          refine .map isMap pairs ?_ ?_
          · intro entry member
            rw [if_neg (pairs.ne_other member number), Datum.extendItem_eq_map, Option.isSome_map]
            exact has entry member
          · intro entry member extended
            rw [if_neg (pairs.ne_other member number), Datum.extendItem_eq_map, Option.map_eq_some_iff]
            rintro ⟨value, isItem, rfl⟩
            obtain ⟨child, isChild, inside⟩ := pairs.exists_child member
            exact inductionHypothesis child isChild entry.2 inside (each entry member value isItem)
      | @both _ left right _ isMatch sides first second =>
          have isLeft : left ∈ n.children := by simp [sides]
          have isRight : right ∈ n.children := by simp [sides]
          exact .both isMatch sides
            (inductionHypothesis left isLeft left (Node.mem_preorder_self left) first)
            (inductionHypothesis right isRight right (Node.mem_preorder_self right) second)

end StyleAudit
