import StyleAudit.Module.Scope
import StyleAudit.Proofs.Outcome

/-!
# Entries of import lists

An entry of an import list is written as a name and an arity. The arity is
tested to consist of digits, but not every digit can be read as part of a
number, and not every number is read (`IsNumber`). `importEntry_eq_ok_iff` and
`importEntry_eq_arity_iff` tell the entries that are read from those that stop
the run; `ofModule_stops_iff` says which modules stop it.
-/

namespace StyleAudit

/-! ## Numbers -/

theorem readDecimals?_foldlM_isSome (digits : List Char) (total : Nat) :
    (digits.foldlM (fun total c => (Text.decimalValue? c).map (10 * total + ·)) total).isSome =
      digits.all Text.isDecimal := by
  induction digits generalizing total with
  | nil => rfl
  | cons c rest inductionHypothesis =>
      rw [List.foldlM_cons, List.all_cons, Text.isDecimal]
      cases Text.decimalValue? c with
      | none => rfl
      | some value => exact inductionHypothesis (10 * total + value)

theorem readDecimals?_isSome (digits : List Char) :
    (Text.readDecimals? digits).isSome = (!digits.isEmpty && digits.all Text.isDecimal) := by
  rw [Text.readDecimals?]
  cases digits with
  | nil => rfl
  | cons c rest => exact readDecimals?_foldlM_isSome (c :: rest) 0

/-- The digits are those of a number that is not too long to be read. -/
def IsNumber (digits : List Char) : Prop :=
  (∀ c ∈ digits, Text.isDecimal c = true) ∧ digits.length ≤ integerDigitLimit

/-! ## Entries -/

/-- What an import entry has before its last slash. -/
def entryName (entry : Literal) : List Char :=
  (Text.splitLast '/' entry.plainText.toList).1

/-- What an import entry has after its last slash. -/
def entryDigits (entry : Literal) : List Char :=
  (Text.splitLast '/' entry.plainText.toList).2

/-- The entry passes the test for a name and the digits of an arity. -/
def IsNameAndDigits (entry : Literal) : Prop :=
  entryName entry ≠ [] ∧ entryDigits entry ≠ [] ∧
    ∀ c ∈ entryDigits entry, Text.isDigit c = true

/-- How an entry of an import list is read: into a key, into a record about the
entry, or into a number that stops the analysis. -/
theorem importEntry_eq (entry : Literal) (span : Span) :
    importEntry entry span =
      if entryName entry = [] ∨ entryDigits entry = [] ∨
          ¬(entryDigits entry).all Text.isDigit then
        .error (.confined (.badImportEntry entry span))
      else match Text.readDecimals? (entryDigits entry) with
        | some arity =>
          if integerDigitLimit < (entryDigits entry).length then
            .error (.arity ⟨String.ofList (entryDigits entry)⟩)
          else .ok ⟨String.ofList (entryName entry), arity⟩
        | none => .error (.arity ⟨String.ofList (entryDigits entry)⟩) := by
  simp only [importEntry, entryName, entryDigits, Bool.or_eq_true, List.isEmpty_iff,
    Bool.not_eq_true', Bool.not_eq_true, or_assoc]
  rfl

theorem importEntry_of_not_isNameAndDigits {entry : Literal} (span : Span)
    (unfit : ¬IsNameAndDigits entry) :
    importEntry entry span = .error (.confined (.badImportEntry entry span)) := by
  rw [importEntry_eq, if_pos]
  by_contra fit
  simp only [not_or, not_not, List.all_eq_true] at fit
  exact unfit fit

/-- An entry of the right form is read unless its digits make no number. -/
theorem importEntry_of_isNameAndDigits {entry : Literal} (span : Span)
    (fit : IsNameAndDigits entry) :
    (IsNumber (entryDigits entry) → ∃ key, importEntry entry span = .ok key) ∧
      (¬IsNumber (entryDigits entry) →
        importEntry entry span = .error (.arity ⟨String.ofList (entryDigits entry)⟩)) := by
  obtain ⟨named, numbered, digits⟩ := fit
  have passes : ¬(entryName entry = [] ∨ entryDigits entry = [] ∨
      ¬(entryDigits entry).all Text.isDigit) := by
    simp only [not_or, not_not, List.all_eq_true]
    exact ⟨named, numbered, digits⟩
  have readable := readDecimals?_isSome (entryDigits entry)
  rw [importEntry_eq, if_neg passes]
  cases read : Text.readDecimals? (entryDigits entry) with
  | none =>
      have notDecimal : ¬∀ c ∈ entryDigits entry, Text.isDecimal c = true := by
        intro decimal
        rw [read, List.all_eq_true.mpr decimal] at readable
        simp [numbered] at readable
      exact ⟨fun number => absurd number.1 notDecimal, fun _ => rfl⟩
  | some arity =>
      have decimal : ∀ c ∈ entryDigits entry, Text.isDecimal c = true := by
        rw [read] at readable
        simp only [Option.isSome_some, Bool.true_eq, Bool.and_eq_true] at readable
        exact List.all_eq_true.mp readable.2
      by_cases long : integerDigitLimit < (entryDigits entry).length
      · simp only [if_pos long]
        exact ⟨fun number => absurd number.2 (Nat.not_le.mpr long), fun _ => trivial⟩
      · simp only [if_neg long]
        exact ⟨fun _ => ⟨_, rfl⟩, fun noNumber => absurd ⟨decimal, Nat.not_lt.mp long⟩ noNumber⟩

/-- An entry is read as a function when it is a name and a number. -/
theorem importEntry_eq_ok_iff {entry : Literal} (span : Span) :
    (∃ key, importEntry entry span = .ok key) ↔
      IsNameAndDigits entry ∧ IsNumber (entryDigits entry) := by
  by_cases fit : IsNameAndDigits entry
  · by_cases number : IsNumber (entryDigits entry)
    · exact ⟨fun _ => ⟨fit, number⟩,
        fun _ => (importEntry_of_isNameAndDigits span fit).1 number⟩
    · rw [(importEntry_of_isNameAndDigits span fit).2 number]
      simp [number]
  · rw [importEntry_of_not_isNameAndDigits span fit]
    simp [fit]

/-- An entry stops the run when it looks like a name and an arity and its digits
are no number. -/
theorem importEntry_eq_arity_iff {entry : Literal} {span : Span} {fault : UnreadableArity} :
    importEntry entry span = .error (.arity fault) ↔
      IsNameAndDigits entry ∧ ¬IsNumber (entryDigits entry) ∧
        fault = ⟨String.ofList (entryDigits entry)⟩ := by
  by_cases fit : IsNameAndDigits entry
  · by_cases number : IsNumber (entryDigits entry)
    · obtain ⟨key, read⟩ := (importEntry_of_isNameAndDigits span fit).1 number
      rw [read]
      simp [number]
    · rw [(importEntry_of_isNameAndDigits span fit).2 number]
      simp [fit, number, eq_comm]
  · rw [importEntry_of_not_isNameAndDigits span fit]
    simp [fit]

/-! ## Directives -/

/-- The entries of an import list. -/
def listedEntries : Attribute → List Literal
  | .one .null => []
  | .one entry => [entry]
  | .many entries => entries

/-- An import is read: it chooses a sort of names, or all of its entries are
read. -/
def ReadsImport (directive : Directive) : Prop :=
  let only := directive.node.attr "only"
  (importSelector? only).isSome ∨
    ∀ entry ∈ listedEntries only, IsNameAndDigits entry ∧ IsNumber (entryDigits entry)

/-- An import stops the run: the first of its entries that is not read has
digits that are no number. -/
def StopsAtImport (directive : Directive) : Prop :=
  let only := directive.node.attr "only"
  importSelector? only = none ∧
    ∃ before entry after, listedEntries only = before ++ entry :: after ∧
      (∀ other ∈ before, IsNameAndDigits other ∧ IsNumber (entryDigits other)) ∧
      IsNameAndDigits entry ∧ ¬IsNumber (entryDigits entry)

/-- The entries of an import list are read one by one, and each function is kept once. -/
theorem importRestriction_eq (only : Attribute) (span : Span) :
    importRestriction only span =
      ((listedEntries only).mapM (importEntry · span)).map fun keys =>
        match only with
        | .one .null => none
        | _ => some keys.eraseDups := by
  cases only with
  | one entry =>
      cases entry with
      | null => rfl
      | _ =>
          rw [importRestriction, listedEntries, List.mapM_cons, List.mapM_nil]
          · cases importEntry _ span with
            | error fault => rfl
            | ok key => rfl
          · simp
          · simp
  | many entries => rfl

/-- The declaration that a directive makes with the functions it lists. -/
def ImportDecl.ofRestriction (directive : Directive) (restriction : Option (List FunctionKey)) :
    ImportDecl :=
  { target := (directive.node.attr "module").plainText
    inFunction := directive.inFunction
    restriction := restriction
    selector := importSelector? (directive.node.attr "only")
    span := directive.node.span
    path := directive.path }

theorem ofDirective_eq_map (directive : Directive) :
    ImportDecl.ofDirective directive =
      (if (importSelector? (directive.node.attr "only")).isSome then .ok (some [])
        else importRestriction (directive.node.attr "only") directive.node.span).map
          (ImportDecl.ofRestriction directive) := by
  rw [ImportDecl.ofDirective]
  by_cases chosen : (importSelector? (directive.node.attr "only")).isSome
  · rw [if_pos chosen, if_pos chosen]
    rfl
  · rw [if_neg chosen, if_neg chosen]
    cases importRestriction (directive.node.attr "only") directive.node.span with
    | error fault => rfl
    | ok restriction => rfl

theorem ofDirective_eq_ok_iff {directive : Directive} :
    (∃ decl, ImportDecl.ofDirective directive = .ok decl) ↔ ReadsImport directive := by
  rw [ofDirective_eq_map, ReadsImport]
  by_cases chosen : (importSelector? (directive.node.attr "only")).isSome
  · rw [if_pos chosen]
    exact ⟨fun _ => Or.inl chosen, fun _ => ⟨_, rfl⟩⟩
  · rw [if_neg chosen, importRestriction_eq]
    simp only [Outcome.map_eq_ok_iff, Outcome.mapM_eq_ok_iff, chosen, Bool.false_eq_true, false_or,
      ← importEntry_eq_ok_iff directive.node.span]
    rw [← Outcome.exists_forall₂_iff]
    constructor
    · intro found
      rcases found with ⟨_, _, ⟨keys, pairs, _⟩, _⟩
      exact ⟨keys, pairs⟩
    · intro found
      rcases found with ⟨keys, pairs⟩
      exact ⟨_, _, ⟨keys, pairs, rfl⟩, rfl⟩

/-- Reading a directive stops the run exactly at an entry whose digits are no number. -/
theorem ofDirective_stops_iff {directive : Directive} :
    (∃ fault, ImportDecl.ofDirective directive = .error (.arity fault)) ↔
      StopsAtImport directive := by
  rw [ofDirective_eq_map, StopsAtImport]
  by_cases chosen : (importSelector? (directive.node.attr "only")).isSome
  · rw [if_pos chosen]
    constructor
    · intro found
      rcases found with ⟨_, impossible⟩
      cases impossible
    · intro found
      rcases found with ⟨notChosen, _⟩
      rw [notChosen] at chosen
      cases chosen
  · rw [if_neg chosen, importRestriction_eq]
    have notChosen : importSelector? (directive.node.attr "only") = none :=
      Option.not_isSome_iff_eq_none.mp chosen
    simp only [Outcome.map_eq_error_iff, Outcome.mapM_eq_error_iff, notChosen, true_and,
      importEntry_eq_ok_iff, importEntry_eq_arity_iff]
    constructor
    · intro found
      rcases found with ⟨_, before, entry, after, split, read, fit, noNumber, _⟩
      exact ⟨before, entry, after, split, read, fit, noNumber⟩
    · intro found
      rcases found with ⟨before, entry, after, split, read, fit, noNumber⟩
      exact ⟨_, before, entry, after, split, read, fit, noNumber, rfl⟩

/-! ## Modules -/

/-- The imports of a module, those of nested modules left out. -/
def importDirectives (m : Node) : List Directive :=
  (directivesAmong [] false 0 m.children).filter (·.node.kind == .importDirective)

/-- A module stops the run: its function clauses agree in visibility, and the
first of its imports that is not read lists digits that are no number. -/
def StopsRun (m : Node) : Prop :=
  (∃ functions, groupClauses (clausesOf m.children) = .ok functions) ∧
    ∃ before directive after, importDirectives m = before ++ directive :: after ∧
      (∀ other ∈ before, ReadsImport other) ∧ StopsAtImport directive

theorem confine_eq_ok_iff {α : Type} {read : Except ModuleFault α} {found : α} :
    confine read = .ok found ↔ read = .ok found := by
  cases read with
  | error fault =>
      constructor <;> intro impossible <;> cases impossible
  | ok value =>
      constructor <;> intro same <;> cases same <;> rfl

theorem confine_eq_error_iff {α : Type} {read : Except ModuleFault α} {fault : ModuleFault} :
    confine read = .error (.confined fault) ↔ read = .error fault := by
  cases read with
  | error other =>
      constructor <;> intro same <;> cases same <;> rfl
  | ok value =>
      constructor <;> intro impossible <;> cases impossible

theorem confine_ne_arity {α : Type} (read : Except ModuleFault α) (fault : UnreadableArity) :
    confine read ≠ .error (.arity fault) := by
  cases read <;> rintro ⟨⟩

/-- A module stops the run when it cannot be indexed for a number that cannot
be read. -/
theorem ofModule_stops_iff {isNested : String → Bool} {m : Node} (isModule : m.kind = .module) :
    (∃ fault, ModuleScope.ofModule isNested m = .error (.arity fault)) ↔ StopsRun m := by
  have steps : ∀ fault, ModuleScope.ofModule isNested m = .error (.arity fault) ↔
      (∃ functions, groupClauses (clausesOf m.children) = .ok functions) ∧
        (importDirectives m).mapM ImportDecl.ofDirective = .error (.arity fault) := by
    intro fault
    rw [ModuleScope.ofModule, if_neg (not_not_intro isModule)]
    simp only [Outcome.bind_eq_error_iff, confine_ne_arity, confine_eq_ok_iff, false_or]
    constructor
    · intro found
      rcases found with ⟨functions, grouped, stops | ⟨imports, _, impossible⟩⟩
      · exact ⟨⟨functions, grouped⟩, stops⟩
      · cases impossible
    · intro found
      rcases found with ⟨⟨functions, grouped⟩, stops⟩
      exact ⟨functions, grouped, Or.inl stops⟩
  simp only [steps, StopsRun, Outcome.mapM_eq_error_iff, ofDirective_eq_ok_iff,
    ← ofDirective_stops_iff]
  constructor
  · intro found
    rcases found with ⟨fault, grouped, before, directive, after, split, read, stops⟩
    exact ⟨grouped, before, directive, after, split, read, fault, stops⟩
  · intro found
    rcases found with ⟨grouped, before, directive, after, split, read, fault, stops⟩
    exact ⟨fault, grouped, before, directive, after, split, read, stops⟩

end StyleAudit
