import StyleAudit.Proofs.Table
import StyleAudit.Proofs.Tree.Accepted

/-!
# The grammar of dumps

`IsDump` says which decoded values are dumped nodes, and `Mirrors` which tree
a dumped node stands for. Both speak of the entries of the dump only and know
nothing of the reader.

* `readKind_eq_ok_iff`, `readCoordinates_eq_ok_iff`, `readAttributes_eq_ok_iff`
  and `shapeFault?_eq_none_iff` are the grammar of the parts of a node.
* `normalizeNode_eq_ok_iff_mirrors`: a dump is read as the tree that mirrors
  it, and as no other.
* `normalize_accepts_iff_isDump`: exactly the values of the grammar are read.
-/

namespace StyleAudit

/-! ## Kinds -/

theorem Kind.ofName?_name (kind : Kind) : Kind.ofName? kind.name = some kind := by
  cases kind <;> decide

theorem Kind.ofName?_eq_some_iff {word : String} {kind : Kind} :
    Kind.ofName? word = some kind ↔ word = kind.name := by
  constructor
  · intro named
    have same := List.find?_some named
    exact (beq_iff_eq.mp same).symm
  · rintro rfl
    exact ofName?_name kind

theorem Kind.name_injective {kind other : Kind} (same : kind.name = other.name) :
    kind = other := by
  have named := ofName?_name kind
  rw [same, ofName?_name] at named
  exact (Option.some.inj named).symm

theorem Value.text?_eq_some_iff {value : Value} {word : String} :
    value.text? = some word ↔ value = .text word := by
  cases value <;> simp [text?]

theorem readKind_eq_ok_iff {entries : List (String × Value)} {kind : Kind} :
    readKind entries = .ok kind ↔ entries.lookup "kind" = some (.text kind.name) := by
  have given : ((entries.lookup "kind").getD .null).text?.bind Kind.ofName? = some kind ↔
      entries.lookup "kind" = some (.text kind.name) := by
    rw [Option.bind_eq_some_iff]
    simp only [Value.text?_eq_some_iff, Kind.ofName?_eq_some_iff, exists_eq_right]
    cases entries.lookup "kind" <;> simp
  rw [← given, readKind]
  cases ((entries.lookup "kind").getD .null).text?.bind Kind.ofName? <;> simp

/-! ## Source ranges -/

/-- Where a node writes its source range: in the table under `span`, or among
its own entries when it has no such one. Without a line nothing is written. -/
inductive WritesRange (entries : List (String × Value)) : List (String × Value) → Prop
  | apart {source : List (String × Value)} (own : entries.lookup "span" = some (.table source))
      (lined : (source.lookup "line").isSome) : WritesRange entries source
  | among (bare : entries.lookup "span" = none)
      (lined : (entries.lookup "line").isSome) : WritesRange entries entries

/-- What a field of a source range comes to: the number written, or another one
when it is absent or null. -/
inductive Amounts (found : Option Value) (absent : Nat) : Nat → Prop
  | missing (nothing : found = none ∨ found = some .null) : Amounts found absent absent
  | given {value : Nat} (written : found = some (.int value)) : Amounts found absent value

/-- The coordinates that a node covers below a parent: the range that it writes,
where a column is the first one and a range ends where it starts unless it says
more; or those of the parent when it writes none. -/
inductive Covers (entries : List (String × Value)) (parent : Coordinates) : Coordinates → Prop
  | inherited (bare : ∀ source, ¬WritesRange entries source) : Covers entries parent parent
  | own {source : List (String × Value)} {c : Coordinates} (written : WritesRange entries source)
      (startLine : Amounts (source.lookup "line") 1 c.startLine)
      (startColumn : Amounts (source.lookup "column") 1 c.startColumn)
      (endLine : Amounts (source.lookup "end_line") c.startLine c.endLine)
      (endColumn : Amounts (source.lookup "end_column") c.startColumn c.endColumn) :
      Covers entries parent c

/-- Where a dump writes the range of a node. -/
theorem spanSource?_eq_some_iff {entries source : List (String × Value)} :
    spanSource? entries = some source ↔ WritesRange entries source := by
  rw [spanSource?]
  constructor
  · intro found
    cases under : entries.lookup "span" with
    | none =>
        rw [under] at found
        simp only [Option.getD_none, Value.entries?] at found
        split at found
        · cases found
          exact WritesRange.among under ‹_›
        · cases found
    | some value =>
        rw [under, Option.getD_some] at found
        cases value with
        | table fields =>
            simp only [Value.entries?] at found
            split at found
            · cases found
              exact WritesRange.apart under ‹_›
            · cases found
        | _ => cases found
  · intro written
    cases written with
    | apart own lined => simp [own, Value.entries?, lined]
    | among bare lined => simp [bare, Value.entries?, lined]

/-- What a field of a range amounts to. -/
theorem readSpanField_eq_ok_iff {source : List (String × Value)} {field : SpanField}
    {absent value : Nat} :
    readSpanField source field absent = .ok value ↔
      Amounts (source.lookup field.key) absent value := by
  rw [readSpanField]
  constructor
  · intro read
    split at read
    · cases read
      exact Amounts.missing (Or.inl ‹_›)
    · cases read
      exact Amounts.missing (Or.inr ‹_›)
    · rename_i number written
      split at read
      · cases read
      · cases read
        have whole : ((number.toNat : Nat) : Int) = number := Int.toNat_of_nonneg (by omega)
        exact Amounts.given (by rw [written, whole])
    · cases read
  · intro amounts
    cases amounts with
    | missing nothing =>
        rcases nothing with absent | null
        · rw [absent]
        · rw [null]
    | given written =>
        rw [written]
        simp

/-- Coordinates are those written, and those of the parent where nothing is written. -/
theorem readCoordinates_eq_ok_iff {entries : List (String × Value)} {parent c : Coordinates} :
    readCoordinates entries parent = .ok c ↔ Covers entries parent c := by
  rw [readCoordinates]
  cases written : spanSource? entries with
  | none =>
      have bare : ∀ source, ¬WritesRange entries source := by
        intro source range
        rw [spanSource?_eq_some_iff.mpr range] at written
        cases written
      constructor
      · intro same
        cases same
        exact Covers.inherited bare
      · intro covers
        cases covers with
        | inherited => rfl
        | own range => exact absurd range (bare _)
  | some source =>
      have range := spanSource?_eq_some_iff.mp written
      simp only [Outcome.bind_eq_ok_iff, readSpanField_eq_ok_iff, SpanField.key]
      constructor
      · intro read
        rcases read with ⟨line, lineRead, column, columnRead, endLine, endLineRead, endColumn,
          endColumnRead, same⟩
        cases same
        exact Covers.own range lineRead columnRead endLineRead endColumnRead
      · intro covers
        cases covers with
        | inherited bare => exact absurd range (bare _)
        | own other lineRead columnRead endLineRead endColumnRead =>
            have sameSource := spanSource?_eq_some_iff.mpr other
            rw [written] at sameSource
            cases sameSource
            exact ⟨_, lineRead, _, columnRead, _, endLineRead, _, endColumnRead, rfl⟩

/-- A node covers something when every field of the range that it writes is
absent, null or a non-negative integer. -/
theorem exists_covers_iff {entries : List (String × Value)} {parent : Coordinates} :
    (∃ c, Covers entries parent c) ↔
      ∀ source, WritesRange entries source → ∀ field : SpanField,
        source.lookup field.key = none ∨ source.lookup field.key = some .null ∨
          ∃ value : Nat, source.lookup field.key = some (.int value) := by
  have fieldOf : ∀ {found : Option Value} {absent value : Nat}, Amounts found absent value →
      found = none ∨ found = some .null ∨ ∃ value : Nat, found = some (.int value) := by
    intro found absent value amounts
    cases amounts with
    | missing nothing => exact nothing.imp_right Or.inl
    | given written => exact Or.inr (Or.inr ⟨_, written⟩)
  have amountOf : ∀ {found : Option Value} (absent : Nat),
      (found = none ∨ found = some .null ∨ ∃ value : Nat, found = some (.int value)) →
        ∃ value, Amounts found absent value := by
    intro found absent field
    rcases field with nothing | nothing | ⟨value, written⟩
    · exact ⟨absent, Amounts.missing (Or.inl nothing)⟩
    · exact ⟨absent, Amounts.missing (Or.inr nothing)⟩
    · exact ⟨value, Amounts.given written⟩
  constructor
  · rintro ⟨c, covers⟩ source range field
    cases covers with
    | inherited bare => exact absurd range (bare source)
    | own other startLine startColumn endLine endColumn =>
        have sameSource := spanSource?_eq_some_iff.mpr other
        rw [spanSource?_eq_some_iff.mpr range] at sameSource
        cases sameSource
        cases field with
        | line => exact fieldOf startLine
        | column => exact fieldOf startColumn
        | endLine => exact fieldOf endLine
        | endColumn => exact fieldOf endColumn
  · intro fields
    by_cases written : ∃ source, WritesRange entries source
    · obtain ⟨source, range⟩ := written
      obtain ⟨line, startLine⟩ := amountOf 1 (fields source range .line)
      obtain ⟨column, startColumn⟩ := amountOf 1 (fields source range .column)
      obtain ⟨lastLine, endLine⟩ := amountOf line (fields source range .endLine)
      obtain ⟨lastColumn, endColumn⟩ := amountOf column (fields source range .endColumn)
      exact ⟨⟨line, column, lastLine, lastColumn⟩,
        Covers.own range startLine startColumn endLine endColumn⟩
    · exact ⟨parent, Covers.inherited fun source range => written ⟨source, range⟩⟩

/-! ## Attributes -/

/-- How an attribute is dumped. -/
def Attribute.toValue : Attribute → Value
  | .one literal => literal.toValue
  | .many literals => .list (literals.map Literal.toValue)

/-- The dumped attributes of a node; what counts as nothing stands for none. -/
inductive WritesAttributes (entries : List (String × Value)) : List (String × Value) → Prop
  | none (nothing : ((entries.lookup "attributes").getD .null).isGiven = false) :
      WritesAttributes entries []
  | table {attributes : List (String × Value)}
      (written : entries.lookup "attributes" = some (.table attributes)) :
      WritesAttributes entries attributes

/-- The dump of the attributes of a node. -/
def Attributes.toEntries (attributes : Attributes) : List (String × Value) :=
  attributes.map fun entry => (entry.1, entry.2.toValue)

theorem WritesAttributes.unique {entries left right : List (String × Value)}
    (first : WritesAttributes entries left) (second : WritesAttributes entries right) :
    left = right := by
  have empty : ∀ {attributes : List (String × Value)},
      ((entries.lookup "attributes").getD .null).isGiven = false →
      entries.lookup "attributes" = some (.table attributes) → [] = attributes := by
    intro attributes nothing written
    rw [written] at nothing
    cases attributes with
    | nil => rfl
    | cons => cases nothing
  cases first with
  | none nothing =>
      cases second with
      | none => rfl
      | table written => exact empty nothing written
  | table written =>
      cases second with
      | none nothing => exact (empty nothing written).symm
      | table other =>
          rw [written] at other
          cases other
          rfl

theorem Literal.ofValue?_eq_some_iff {value : Value} {literal : Literal} :
    Literal.ofValue? value = some literal ↔ value = literal.toValue := by
  constructor
  · intro read
    cases value <;> cases read <;> rfl
  · rintro rfl
    cases literal <;> rfl

theorem mapM_ofValue?_eq_some_iff {items : List Value} {literals : List Literal} :
    items.mapM Literal.ofValue? = some literals ↔ items = literals.map Literal.toValue := by
  induction items generalizing literals with
  | nil => cases literals <;> simp
  | cons item rest inductionHypothesis =>
      rw [List.mapM_cons]
      simp only [Option.bind_eq_bind, Option.bind_eq_some_iff, Option.pure_def, Option.some.injEq,
        Literal.ofValue?_eq_some_iff, inductionHypothesis]
      constructor
      · rintro ⟨literal, rfl, others, rfl, rfl⟩
        rfl
      · intro same
        cases literals with
        | nil => cases same
        | cons literal others =>
            rw [List.map_cons, List.cons.injEq] at same
            exact ⟨literal, same.1, others, same.2, rfl⟩

/-- An attribute is accepted exactly when it is the value of a literal or of a list
of literals. -/
theorem readAttribute_eq_ok_iff {name : String} {value : Value} {held : Attribute} :
    readAttribute name value = .ok held ↔ value = held.toValue := by
  cases value with
  | list items =>
      rw [readAttribute]
      constructor
      · intro read
        cases literals : items.mapM Literal.ofValue? with
        | none =>
            rw [literals] at read
            cases read
        | some values =>
            rw [literals] at read
            cases read
            rw [Attribute.toValue, mapM_ofValue?_eq_some_iff.mp literals]
      · intro written
        cases held with
        | one literal => cases literal <;> cases written
        | many values =>
            cases written
            rw [mapM_ofValue?_eq_some_iff.mpr rfl]
  | _ =>
      cases held with
      | one literal =>
          cases literal <;>
            simp [readAttribute, Literal.ofValue?, Attribute.toValue, Literal.toValue]
      | many values => simp [readAttribute, Literal.ofValue?, Attribute.toValue]

/-- Attributes are read from the place where a dump writes them. -/
theorem readAttributes_eq_ok_iff {entries : List (String × Value)} {attributes : Attributes} :
    readAttributes entries = .ok attributes ↔
      WritesAttributes entries attributes.toEntries := by
  have readTable : ∀ {dumped : List (String × Value)},
      (dumped.mapM fun entry => do return (entry.1, ← readAttribute entry.1 entry.2)) =
          Except.ok attributes ↔ dumped = attributes.toEntries := by
    intro dumped
    rw [Outcome.mapM_eq_ok_iff, Attributes.toEntries, ← List.forall₂_eq_eq_eq,
      List.forall₂_map_right_iff]
    have sameEntry : ∀ (entry : String × Value) (held : String × Attribute),
        (do return (entry.1, ← readAttribute entry.1 entry.2) : Except NodeFault _) = .ok held ↔
          entry = (held.1, held.2.toValue) := by
      rintro ⟨name, value⟩ ⟨other, held⟩
      simp only [Outcome.bind_eq_ok_iff, readAttribute_eq_ok_iff, pure, Except.pure,
        Except.ok.injEq, Prod.mk.injEq]
      constructor
      · rintro ⟨found, rfl, rfl, rfl⟩
        exact ⟨rfl, rfl⟩
      · rintro ⟨rfl, rfl⟩
        exact ⟨held, rfl, rfl, rfl⟩
    simp only [sameEntry]
  rw [readAttributes]
  cases given : ((entries.lookup "attributes").getD .null).isGiven with
  | false =>
      constructor
      · intro same
        cases same
        exact WritesAttributes.none given
      · intro writes
        have same := writes.unique (WritesAttributes.none given)
        rw [Attributes.toEntries, List.map_eq_nil_iff] at same
        rw [same]
        rfl
  | true =>
      constructor
      · intro read
        cases written : entries.lookup "attributes" with
        | none =>
            rw [written] at given
            cases given
        | some value =>
            rw [written, Option.getD_some] at read
            cases value with
            | table dumped =>
                exact WritesAttributes.table (written.trans (by rw [← readTable.mp read]))
            | _ => cases read
      · intro writes
        generalize same : attributes.toEntries = dumped at writes
        cases writes with
        | none nothing =>
            rw [given] at nothing
            cases nothing
        | table written =>
            rw [written]
            exact readTable.mpr same.symm

theorem lookup_toEntries (attributes : Attributes) (name : String) :
    attributes.toEntries.lookup name = (attributes.lookup name).map Attribute.toValue := by
  rw [Attributes.toEntries]
  exact lookup_map_values (fun _ => Attribute.toValue) attributes name

/-- A table holds dumped attributes when each of its values is the dump of
one. -/
theorem exists_toEntries_iff {dumped : List (String × Value)} :
    (∃ attributes : Attributes, attributes.toEntries = dumped) ↔
      ∀ entry ∈ dumped, ∃ held : Attribute, entry.2 = held.toValue := by
  constructor
  · rintro ⟨attributes, rfl⟩ entry member
    obtain ⟨held, _, rfl⟩ := List.mem_map.mp member
    exact ⟨held.2, rfl⟩
  · intro readable
    induction dumped with
    | nil => exact ⟨[], rfl⟩
    | cons entry rest inductionHypothesis =>
        obtain ⟨held, same⟩ := readable entry List.mem_cons_self
        obtain ⟨attributes, rfl⟩ := inductionHypothesis fun other member =>
          readable other (List.mem_cons_of_mem entry member)
        refine ⟨(entry.1, held) :: attributes, ?_⟩
        rw [Attributes.toEntries, List.map_cons, ← same]
        rfl

/-! ## Shapes -/

/-- What the shape of a kind demands of the dumped attributes of a node and of
the kinds of its children. -/
structure MeetsShape (kind : Kind) (attributes : List (String × Value)) (kinds : List Kind) :
    Prop where
  enough : kind.shape.leastChildren ≤ kinds.length
  attributed : ∀ name ∈ kind.shape.required, ∃ value,
    attributes.lookup name = some value ∧ value ≠ .null ∧ value ≠ .text ""
  led : ∀ (position : Nat) expected, kind.shape.leading[position]? = some (some expected) →
    kinds[position]? = some expected
  uniform : ∀ only, kind.onlyChildren? = some only → ∀ found ∈ kinds, found = only
  visible : kind = .function →
    attributes.lookup "visibility" = some (.text "public") ∨
      attributes.lookup "visibility" = some (.text "private")
  armed : kind = .caseExpr → ∀ found ∈ kinds.tail, found = .branch
  closed : kind = .withExpr → ∃ others last,
    kinds = .withClause :: List.replicate others .withClause ++ .block :: last ∧
      (last = [] ∨ last = [.elseBlock])

/-- An attribute counts as there if it holds neither null nor the empty text. -/
theorem Attributes.has_iff {attributes : Attributes} {name : String} :
    attributes.has name = true ↔ ∃ value, attributes.toEntries.lookup name = some value ∧
      value ≠ .null ∧ value ≠ .text "" := by
  rw [has, lookup_toEntries]
  split
  · rename_i absent
    simp [absent]
  · rename_i null
    simp [null, Attribute.toValue, Literal.toValue]
  · rename_i empty
    simp [empty, Attribute.toValue, Literal.toValue]
  · rename_i held notNull notEmpty found
    rw [found]
    simp only [Option.map_some, Option.some.injEq, exists_eq_left', true_iff]
    cases held with
    | many literals => simp [Attribute.toValue]
    | one literal => cases literal <;> simp_all [Attribute.toValue, Literal.toValue]

theorem isVisible_iff {attributes : Attributes} :
    (attributes.lookup "visibility").any (·.isTextIn ["public", "private"]) = true ↔
      attributes.toEntries.lookup "visibility" = some (.text "public") ∨
        attributes.toEntries.lookup "visibility" = some (.text "private") := by
  rw [lookup_toEntries]
  cases attributes.lookup "visibility" with
  | none => simp
  | some held =>
      cases held with
      | many literals => simp [Attribute.isTextIn, Attribute.text?, Attribute.toValue]
      | one literal =>
          cases literal <;>
            simp [Attribute.isTextIn, Attribute.text?, Attribute.toValue, Literal.toValue]

theorem leading_length_le (kind : Kind) :
    kind.shape.leading.length ≤ kind.shape.leastChildren := by
  cases kind <;> decide

/-- No leading position is at fault when every child that is expected to be of
a kind is of that kind. -/
theorem wrongLeading?_eq_none_iff {position : Nat} {leading : List (Option Kind)}
    {children : List Node} (enough : leading.length ≤ children.length) :
    wrongLeading? position leading children = none ↔
      ∀ (place : Nat) expected, leading[place]? = some (some expected) →
        (children.map (·.kind))[place]? = some expected := by
  induction leading generalizing position children with
  | nil => simp [wrongLeading?]
  | cons first leading inductionHypothesis =>
      cases children with
      | nil => simp at enough
      | cons child children =>
          have fewer : leading.length ≤ children.length := Nat.le_of_succ_le_succ enough
          have later : ∀ next, wrongLeading? next leading children = none ↔ _ :=
            fun next => @inductionHypothesis next children fewer
          rw [← Nat.and_forall_add_one]
          simp only [List.getElem?_cons_zero, List.getElem?_cons_succ, List.map_cons]
          cases first with
          | none => simp [wrongLeading?, later]
          | some expected =>
              by_cases same : child.kind = expected
              · simp [wrongLeading?, later, same]
              · simp [wrongLeading?, same]

theorem countP_withClause (children : List Node) :
    children.countP (·.kind == .withClause) = (children.map (·.kind)).count .withClause := by
  rw [List.count, List.countP_map]
  rfl

/-- When no clause is left after as many children as there are clauses, they
are the first ones. -/
theorem take_count_withClause {kinds : List Kind}
    (noneLeft : (kinds.drop (kinds.count .withClause)).count .withClause = 0) :
    kinds.take (kinds.count .withClause) =
      List.replicate (kinds.count .withClause) .withClause := by
  have allTaken : (kinds.take (kinds.count .withClause)).count .withClause =
      kinds.count .withClause := by
    have total := congrArg (List.count .withClause)
      (List.take_append_drop (kinds.count .withClause) kinds)
    rw [List.count_append, noneLeft, Nat.add_zero] at total
    exact total
  have length : (kinds.take (kinds.count .withClause)).length = kinds.count .withClause :=
    List.length_take_of_le List.count_le_length
  rw [List.eq_replicate_iff]
  refine ⟨length, ?_⟩
  intro kind member
  exact (List.count_eq_length.mp (allTaken.trans length.symm) kind member).symm

/-- A `with` is closed when its clauses are followed by one block and at most
one `else`. -/
theorem withFault?_eq_none_iff {children : List Node} :
    withFault? children = none ↔ ∃ clauses last,
      children.map (·.kind) = List.replicate clauses .withClause ++ .block :: last ∧
        (last = [] ∨ last = [.elseBlock]) := by
  rw [withFault?, countP_withClause]
  constructor
  · intro closed
    generalize isCount : (children.map (·.kind)).count .withClause = clauses at closed
    have ended : ∃ last, (children.map (·.kind)).drop clauses = .block :: last ∧
        (last = [] ∨ last = [.elseBlock]) := by
      rw [← List.map_drop]
      cases after : children.drop clauses with
      | nil => simp [after] at closed
      | cons first rest =>
          simp only [after] at closed
          split at closed
          · cases closed
          · rename_i isBlock
            rw [ne_eq, not_not] at isBlock
            refine ⟨rest.map (·.kind), by rw [List.map_cons, isBlock], ?_⟩
            split at closed
            · exact Or.inl rfl
            · rename_i last
              by_cases isElse : last.kind = .elseBlock
              · exact Or.inr (by rw [List.map_cons, isElse, List.map_nil])
              · simp [isElse] at closed
            · cases closed
    obtain ⟨last, after, lastKinds⟩ := ended
    have noneLeft : ((children.map (·.kind)).drop clauses).count .withClause = 0 := by
      rw [after]
      rcases lastKinds with rfl | rfl <;> rfl
    subst isCount
    have before := take_count_withClause noneLeft
    refine ⟨(children.map (·.kind)).count .withClause, last, ?_, lastKinds⟩
    rw [← before, ← after, List.take_append_drop]
  · rintro ⟨clauses, last, kinds, lastKinds⟩
    have counted : (children.map (·.kind)).count .withClause = clauses := by
      rw [kinds, List.count_append, List.count_replicate_self]
      rcases lastKinds with rfl | rfl <;> rfl
    have after : (children.drop clauses).map (·.kind) = .block :: last := by
      rw [List.map_drop, kinds]
      exact List.drop_left' List.length_replicate
    rw [counted]
    obtain ⟨first, rest, dropped, isBlock, lastNodes⟩ := List.map_eq_cons_iff.mp after
    simp only [dropped, isBlock, ne_eq, not_true_eq_false, if_false]
    rcases lastKinds with rfl | rfl
    · rw [List.map_eq_nil_iff.mp lastNodes]
    · obtain ⟨elseBlock, rfl, isElse⟩ := List.map_eq_singleton_iff.mp lastNodes
      simp [isElse]

/-- The shape of a kind is met when no fault is found. -/
theorem shapeFault?_eq_none_iff {kind : Kind} {attributes : Attributes} {children : List Node} :
    shapeFault? kind attributes children = none ↔
      MeetsShape kind attributes.toEntries (children.map (·.kind)) := by
  constructor
  · intro shaped
    have fits := fitsShape_of_shapeFault? shaped
    have enough : kind.shape.leading.length ≤ children.length :=
      Nat.le_trans (leading_length_le kind) fits.enough
    refine ⟨by rw [List.length_map]; exact fits.enough,
      fun name required => Attributes.has_iff.mp (fits.attributed name required),
      (wrongLeading?_eq_none_iff enough).mp fits.led, ?_,
      fun isFunction => isVisible_iff.mp (fits.visible isFunction), ?_, ?_⟩
    · intro only restricted found member
      obtain ⟨child, childMember, rfl⟩ := List.mem_map.mp member
      exact fits.uniform only restricted child childMember
    · intro isCase found member
      rw [← List.map_tail] at member
      obtain ⟨child, childMember, rfl⟩ := List.mem_map.mp member
      rw [← List.drop_one] at childMember
      exact beq_iff_eq.mp (List.all_eq_true.mp (fits.armed isCase) child childMember)
    · rintro rfl
      obtain ⟨clauses, last, kinds, lastKinds⟩ := withFault?_eq_none_iff.mp (fits.closed rfl)
      have first := (wrongLeading?_eq_none_iff enough).mp fits.led 0 .withClause rfl
      rw [kinds] at first ⊢
      cases clauses with
      | zero => cases first
      | succ others => exact ⟨others, last, rfl, lastKinds⟩
  · intro meets
    have few : ¬children.length < kind.shape.leastChildren := by
      have enough := meets.enough
      rw [List.length_map] at enough
      omega
    have attributed : (kind.shape.required.find? fun name => !attributes.has name) = none := by
      rw [List.find?_eq_none]
      intro name required
      simp [Attributes.has_iff.mpr (meets.attributed name required)]
    have led : wrongLeading? 0 kind.shape.leading children = none :=
      (wrongLeading?_eq_none_iff
        (Nat.le_trans (leading_length_le kind) (Nat.not_lt.mp few))).mpr meets.led
    have uniform :
        (kind.onlyChildren?.bind fun only => children.find? (·.kind != only)) = none := by
      rw [Option.bind_eq_none_iff]
      intro only restricted
      rw [List.find?_eq_none]
      intro child member
      simp [meets.uniform only restricted _ (List.mem_map_of_mem member)]
    simp only [shapeFault?, if_neg few, attributed, led, uniform]
    split
    · rw [if_pos (isVisible_iff.mpr (meets.visible rfl))]
    · obtain ⟨others, last, kinds, lastKinds⟩ := meets.closed rfl
      exact withFault?_eq_none_iff.mpr ⟨others + 1, last, kinds, lastKinds⟩
    · rw [if_pos]
      rw [List.all_eq_true]
      intro arm member
      rw [List.drop_one] at member
      exact beq_iff_eq.mpr <| meets.armed rfl arm.kind <| by
        rw [← List.map_tail]
        exact List.mem_map_of_mem member
    · rfl

/-! ## Nodes -/

/-- A dumped value is a node of a kind: a table that names the kind, whose
source range, attributes and children can be read, and which has the shape of
the kind. -/
inductive IsDump : Value → Kind → Prop
  | node {entries attributes : List (String × Value)} {kind : Kind} {items : List Value}
      {kinds : List Kind}
      (named : entries.lookup "kind" = some (.text kind.name))
      (placed : ∀ source, WritesRange entries source → ∀ field : SpanField,
        source.lookup field.key = none ∨ source.lookup field.key = some .null ∨
          ∃ value : Nat, source.lookup field.key = some (.int value))
      (attributed : WritesAttributes entries attributes)
      (literal : ∀ entry ∈ attributes, ∃ held : Attribute, entry.2 = held.toValue)
      (listed : childList? entries = some items)
      (below : List.Forall₂ IsDump items kinds)
      (shaped : MeetsShape kind attributes kinds) : IsDump (.table entries) kind

/-- A tree is the image of a dumped node of a file below a parent: node by node
it has the kind and the attributes that are written and covers the range that
is written, or that of its parent. -/
inductive Mirrors (file : String) : Coordinates → Value → Node → Prop
  | node {parent : Coordinates} {entries : List (String × Value)} {items : List Value} {n : Node}
      (named : entries.lookup "kind" = some (.text n.kind.name))
      (inFile : n.span.file = file)
      (covers : Covers entries parent n.span.coordinates)
      (attributed : WritesAttributes entries n.attributes.toEntries)
      (listed : childList? entries = some items)
      (sameLength : items.length = n.children.length)
      (below : ∀ pair ∈ items.zip n.children, Mirrors file n.span.coordinates pair.1 pair.2) :
      Mirrors file parent (.table entries) n

theorem IsDump.kind_eq {file : String} {parent : Coordinates} {raw : Value} {kind : Kind}
    {n : Node} (dump : IsDump raw kind) (mirrors : Mirrors file parent raw n) : kind = n.kind := by
  cases mirrors with
  | node named =>
      cases dump with
      | node written =>
          rw [named] at written
          exact (Kind.name_injective (Value.text.inj (Option.some.inj written))).symm

theorem kinds_eq_of_mirrors {file : String} {parent : Coordinates} {items : List Value}
    {kinds : List Kind} {children : List Node} (dumps : List.Forall₂ IsDump items kinds)
    (mirrors : List.Forall₂ (Mirrors file parent) items children) :
    children.map (·.kind) = kinds := by
  induction mirrors generalizing kinds with
  | nil =>
      cases dumps
      rfl
  | cons here _ inductionHypothesis =>
      cases dumps with
      | cons dump others =>
          rw [List.map_cons, inductionHypothesis others, dump.kind_eq here]

/-- A dumped node is read as the tree that is its image, and as no other. -/
theorem normalizeNode_eq_ok_iff_mirrors {file : String} {parent : Coordinates} {path : NodePath}
    {raw : Value} {n : Node} :
    normalizeNode file parent path raw = .ok n ↔
      IsDump raw n.kind ∧ Mirrors file parent raw n := by
  induction raw using Value.childInduction generalizing parent path n with
  | step raw inductionHypothesis =>
      rw [normalizeNode_eq_ok_iff]
      simp only [readKind_eq_ok_iff, readCoordinates_eq_ok_iff, readAttributes_eq_ok_iff,
        shapeFault?_eq_none_iff]
      constructor
      · rintro ⟨entries, items, rfl, listed, named, inFile, covers, attributed, below, shaped⟩
        have childrenRead : List.Forall₂ (fun item child =>
            IsDump item child.kind ∧ Mirrors file n.span.coordinates item child)
            items n.children := by
          rw [List.forall₂_iff_zip] at below ⊢
          exact ⟨below.1, fun {item} {child} paired =>
            (inductionHypothesis entries items rfl listed item (List.of_mem_zip paired).1).mp
              (below.2 paired)⟩
        refine ⟨IsDump.node named (exists_covers_iff.mp ⟨_, covers⟩) attributed
            (exists_toEntries_iff.mp ⟨_, rfl⟩) listed ?_ shaped,
          Mirrors.node named inFile covers attributed listed childrenRead.length_eq ?_⟩
        · rw [List.forall₂_map_right_iff]
          exact childrenRead.imp fun _ _ both => both.1
        · intro pair paired
          exact ((List.forall₂_iff_zip.mp childrenRead).2 paired).2
      · rintro ⟨dump, mirrors⟩
        cases mirrors with
        | @node _ entries items _ named inFile covers attributed listed sameLength below =>
            cases dump with
            | node _ _ otherAttributed _ otherListed dumps shaped =>
                rw [listed] at otherListed
                cases otherListed
                have images : List.Forall₂ (Mirrors file n.span.coordinates) items n.children :=
                  List.forall₂_iff_zip.mpr ⟨sameLength, fun {item} {child} paired =>
                    below (item, child) paired⟩
                rw [← attributed.unique otherAttributed, ← kinds_eq_of_mirrors dumps images]
                  at shaped
                have childrenRead : List.Forall₂ (fun item child =>
                    normalizeNode file n.span.coordinates [] item = .ok child)
                    items n.children := by
                  rw [← kinds_eq_of_mirrors dumps images, List.forall₂_map_right_iff] at dumps
                  rw [List.forall₂_iff_zip] at dumps images ⊢
                  refine ⟨sameLength, fun {item} {child} paired => ?_⟩
                  exact (inductionHypothesis entries items rfl listed item
                    (List.of_mem_zip paired).1).mpr ⟨dumps.2 paired, images.2 paired⟩
                exact ⟨entries, items, rfl, listed, named, inFile, covers, attributed,
                  childrenRead, shaped⟩

/-- Every dumped node has an image. -/
theorem IsDump.exists_mirrors {raw : Value} {kind : Kind} (dump : IsDump raw kind) (file : String)
    (parent : Coordinates) : ∃ n, n.kind = kind ∧ Mirrors file parent raw n := by
  induction raw using Value.childInduction generalizing kind parent with
  | step raw inductionHypothesis =>
      cases dump with
      | @node entries dumped _ items kinds named placed attributed literal listed below =>
          obtain ⟨c, covers⟩ := exists_covers_iff.mpr placed
          obtain ⟨attributes, rfl⟩ := exists_toEntries_iff.mpr literal
          obtain ⟨children, images⟩ :
              ∃ children, List.Forall₂ (Mirrors file c) items children := by
            rw [Outcome.exists_forall₂_iff]
            intro item member
            obtain ⟨itemKind, _, itemDump⟩ :=
              Outcome.exists_of_forall₂_of_mem_left below member
            obtain ⟨child, _, image⟩ :=
              inductionHypothesis entries items rfl listed item member itemDump c
            exact ⟨child, image⟩
          refine ⟨⟨kind, ⟨file, c⟩, attributes, children⟩, rfl,
            Mirrors.node named rfl covers attributed listed images.length_eq ?_⟩
          intro pair paired
          exact (List.forall₂_iff_zip.mp images).2 paired

/-- Exactly the dumped nodes are read, each as its image; all else is
malformed. -/
theorem normalize_accepts_iff_isDump (raw : Value) (file : String) :
    ((∃ n, Node.normalize raw (some file) = .ok n) ↔ ∃ kind, IsDump raw kind) ∧
    ((∃ failure, Node.normalize raw (some file) = .error failure) ↔ ¬∃ kind, IsDump raw kind) ∧
    ∀ n, Node.normalize raw (some file) = .ok n ↔
      IsDump raw n.kind ∧ Mirrors file .origin raw n := by
  have reads : ∀ n, Node.normalize raw (some file) = .ok n ↔
      IsDump raw n.kind ∧ Mirrors file .origin raw n := by
    intro n
    rw [Node.normalize_eq_ok_iff]
    simp only [Option.some_or, Option.some.injEq, exists_eq_left',
      normalizeNode_eq_ok_iff_mirrors]
  have accepts : (∃ n, Node.normalize raw (some file) = .ok n) ↔ ∃ kind, IsDump raw kind := by
    constructor
    · rintro ⟨n, read⟩
      exact ⟨n.kind, ((reads n).mp read).1⟩
    · rintro ⟨kind, dump⟩
      obtain ⟨n, rfl, mirrors⟩ := dump.exists_mirrors file .origin
      exact ⟨n, (reads n).mpr ⟨dump, mirrors⟩⟩
  refine ⟨accepts, ?_, reads⟩
  rw [← accepts]
  cases Node.normalize raw (some file) <;> simp

end StyleAudit
