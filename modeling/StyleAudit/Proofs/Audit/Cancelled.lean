import StyleAudit.Proofs.Audit.Share
import StyleAudit.Proofs.Table

/-!
# Cancelled files

The analysis of a file that is cancelled before one of its modules is the analysis
of the file without this module and the later ones, except that its report says so
(`analyze_cancelled_eq_truncated`). Readings of the cancellation after the first
one that is set are not taken.
-/

namespace StyleAudit

/-- The items of a list; other values have none. -/
def Value.items : Value → List Value
  | list items => items
  | _ => []

/-- Something is given, and it is no list. -/
def Value.isUnlisted : Value → Bool
  | list _ => false
  | value => value.isGiven

/-- The value with its first items only. -/
def Value.take (count : Nat) : Value → Value
  | list items => list (items.take count)
  | value => value

/-- What a dumped node gives for its children. -/
def childrenOf (raw : Value) : Value :=
  (raw.find? "children").getD .null

/-- The dump of a node with its first children only. -/
def truncated (count : Nat) : Value → Value
  | .table entries =>
    .table (entries.map fun entry =>
      (entry.1, if entry.1 = "children" then entry.2.take count else entry.2))
  | raw => raw

/-- The dump is one of a source file. -/
def IsSourceFile (raw : Value) : Prop :=
  (raw.find? "kind").bind Value.text? = some Kind.sourceFile.name

variable {raw : Value} {file : Option String} {count : Nat}

theorem Value.items_take (count : Nat) (value : Value) :
    (value.take count).items = value.items.take count := by
  cases value with
  | list items => rfl
  | _ => exact List.take_nil.symm

theorem Value.isUnlisted_take (count : Nat) (value : Value) :
    (value.take count).isUnlisted = value.isUnlisted := by
  cases value <;> rfl

theorem find?_truncated (count : Nat) (raw : Value) (key : String) :
    (truncated count raw).find? key =
      (raw.find? key).map fun value => if key = "children" then value.take count else value := by
  cases raw with
  | table entries =>
      exact lookup_map_values
        (fun key (value : Value) => if key = "children" then value.take count else value) entries key
  | _ => rfl

theorem find?_truncated_of_ne {key : String} (other : key ≠ "children") :
    (truncated count raw).find? key = raw.find? key := by
  rw [find?_truncated]
  simp only [if_neg other, Option.map_id']

theorem childrenOf_truncated : childrenOf (truncated count raw) = (childrenOf raw).take count := by
  rw [childrenOf, childrenOf, find?_truncated]
  cases raw.find? "children" <;> rfl

theorem namedFile?_truncated : namedFile? (truncated count raw) = namedFile? raw := by
  rw [namedFile?, namedFile?, find?_truncated_of_ne (by decide)]

theorem isSourceFile_truncated (isFile : IsSourceFile raw) : IsSourceFile (truncated count raw) := by
  rw [IsSourceFile, find?_truncated_of_ne (by decide)]
  exact isFile

theorem IsSourceFile.exists_entries (isFile : IsSourceFile raw) :
    ∃ entries, raw = .table entries ∧
      ((entries.lookup "kind").getD .null).text? = some Kind.sourceFile.name := by
  cases raw with
  | table entries =>
      refine ⟨entries, rfl, ?_⟩
      rw [IsSourceFile, Value.find?] at isFile
      cases kind : entries.lookup "kind" with
      | none =>
          rw [kind] at isFile
          cases isFile
      | some word =>
          rw [kind] at isFile
          exact isFile
  | _ => cases isFile

/-- The modules of a dumped source file are its children. -/
theorem splitModules_of_isSourceFile (isFile : IsSourceFile raw) (file : Option String) :
    splitModules raw file =
      match file.or (namedFile? raw) with
      | none => .error .unnamedFile
      | some source =>
        if (childrenOf raw).isUnlisted then .error .childrenNotList
        else .ok ((childrenOf raw).items, source) := by
  obtain ⟨entries, rfl, isNamed⟩ := isFile.exists_entries
  have notModule : ¬Kind.sourceFile.name = Kind.module.name := by
    decide
  rw [splitModules]
  cases file.or (namedFile? (.table entries)) with
  | none => rfl
  | some source =>
      have listed : (entries.lookup "children").getD .null = childrenOf (.table entries) := rfl
      simp only [isNamed, Option.some.injEq, notModule, if_false, if_true, listed]
      cases childrenOf (.table entries) with
      | list items =>
          cases items with
          | nil => rfl
          | cons first rest => rfl
      | null => rfl
      | moment value => rfl
      | _ value => cases given : Value.isGiven _ <;> simp [given, Value.isUnlisted, Value.items]

theorem splitModules_truncated (isFile : IsSourceFile raw) (count : Nat) (file : Option String) :
    splitModules (truncated count raw) file =
      (splitModules raw file).map fun parts => (parts.1.take count, parts.2) := by
  rw [splitModules_of_isSourceFile isFile,
    splitModules_of_isSourceFile (isSourceFile_truncated isFile), namedFile?_truncated,
    childrenOf_truncated, Value.isUnlisted_take, Value.items_take]
  cases file.or (namedFile? raw) with
  | none => rfl
  | some source => cases (childrenOf raw).isUnlisted <;> rfl

/-- A file whose modules are not known has no name, or no children are listed. -/
theorem unread_of_splitModules_error {fault : SplitFault} (isFile : IsSourceFile raw)
    (failed : splitModules raw file = .error fault) :
    file.or (namedFile? raw) = none ∨ (childrenOf raw).items = [] := by
  rw [splitModules_of_isSourceFile isFile] at failed
  cases named : file.or (namedFile? raw) with
  | none => exact Or.inl rfl
  | some source =>
      refine Or.inr ?_
      cases given : childrenOf raw with
      | list items => simp [named, given, Value.isUnlisted] at failed
      | _ => rfl

theorem modules_of_splitModules {modules : List Value} {source : String}
    (isFile : IsSourceFile raw) (split : splitModules raw file = .ok (modules, source)) :
    file.or (namedFile? raw) = some source ∧ (childrenOf raw).items = modules := by
  rw [splitModules_of_isSourceFile isFile] at split
  cases named : file.or (namedFile? raw) with
  | none => simp [named] at split
  | some name =>
      cases unlisted : (childrenOf raw).isUnlisted with
      | true => simp [named, unlisted] at split
      | false =>
          simp only [named, unlisted, Bool.false_eq_true, if_false, Except.ok.injEq,
            Prod.mk.injEq] at split
          exact ⟨congrArg some split.2, split.1⟩

namespace Engine

variable {cancel : Cancellation} {modules : List Value}

/-- A run over modules that is cancelled is the run over those before the first
reading that is set; `other` is the count under which this run begins. -/
theorem analyzeModules_take (engine : Engine) (source : String) (clock : Clock)
    {index : Nat} (tick other : Nat) (unset : ∀ i < count, cancel (index + i) = false)
    (isSet : count < modules.length → cancel (index + count) = true) :
    engine.analyzeModules source cancel clock index tick modules =
      (engine.analyzeModules source .never clock other tick (modules.take count)).map
        fun tally => { tally with cancelled := decide (count < modules.length) } := by
  induction modules generalizing index tick other count with
  | nil =>
      rw [List.take_nil]
      rfl
  | cons raw rest inductionHypothesis =>
      cases count with
      | zero =>
          have stops : cancel index = true := isSet (Nat.zero_lt_succ _)
          rw [analyzeModules, if_pos stops]
          rfl
      | succ count =>
          obtain ⟨exceeded, later, _, step⟩ := analyzeModules_step engine source clock tick raw
          have attends : cancel index = false := unset 0 (Nat.zero_lt_succ _)
          have laterUnset : ∀ i < count, cancel (index + 1 + i) = false := by
            intro i before
            rw [Nat.add_assoc, Nat.add_comm 1 i]
            exact unset (i + 1) (by omega)
          have laterSet : count < rest.length → cancel (index + 1 + count) = true := by
            intro remains
            rw [Nat.add_assoc, Nat.add_comm 1 count]
            exact isSet (Nat.succ_lt_succ remains)
          have sameBound : decide (count + 1 < (raw :: rest).length) =
              decide (count < rest.length) := by
            rw [List.length_cons, decide_eq_decide, Nat.add_lt_add_iff_right]
          rw [step cancel index attends rest, List.take_succ_cons,
            step .never other rfl (rest.take count), sameBound,
            inductionHypothesis later (other + 1) laterUnset laterSet]
          cases engine.share source exceeded raw with
          | error _ => rfl
          | ok share =>
              cases engine.analyzeModules source .never clock (other + 1) later
                  (rest.take count) <;> rfl

/-- The analysis of a source file reports what it reports of the children before the
first reading that is set, as if there were no others and nothing had been
cancelled. It says that it was cancelled exactly when a reading before one of the
children is set; of a file without a name no child is looked at. -/
theorem analyze_cancelled_eq_truncated (engine : Engine) (raw : Value)
    (isFile : IsSourceFile raw) (file : Option String) (clock : Clock) (cancel : Cancellation)
    (count : Nat) (unset : ∀ i < count, cancel i = false)
    (isSet : count < (childrenOf raw).items.length → cancel count = true) :
    ∃ stopped : Bool,
      engine.analyze raw file cancel clock =
        (engine.analyze (truncated count raw) file .never clock).map
          (fun report => { report with cancelled := stopped }) ∧
      (stopped = true ↔ (file.or (namedFile? raw)).isSome ∧
        ∃ i < (childrenOf raw).items.length, cancel i = true) := by
  have stopsWithin : count < (childrenOf raw).items.length ↔
      ∃ i < (childrenOf raw).items.length, cancel i = true := by
    constructor
    · intro remains
      exact ⟨count, remains, isSet remains⟩
    · intro found
      obtain ⟨i, within, stops⟩ := found
      by_contra passes
      have earlier : cancel i = false := unset i (by omega)
      rw [stops] at earlier
      cases earlier
  have splitFirst := splitModules_truncated isFile count file
  cases split : splitModules raw file with
  | error fault =>
      rw [split] at splitFirst
      refine ⟨false, ?_, ?_⟩
      · rw [analyze, split, analyze, splitFirst]
        rfl
      · rcases unread_of_splitModules_error isFile split with unnamed | noChildren
        · simp [unnamed]
        · simp [noChildren]
  | ok parts =>
      obtain ⟨modules, source⟩ := parts
      rw [split] at splitFirst
      obtain ⟨named, rfl⟩ := modules_of_splitModules isFile split
      refine ⟨decide (count < (childrenOf raw).items.length), ?_, ?_⟩
      · have unsetBefore : ∀ i < count, cancel (0 + i) = false := by
          simpa only [Nat.zero_add] using unset
        have setThere : count < (childrenOf raw).items.length → cancel (0 + count) = true := by
          simpa only [Nat.zero_add] using isSet
        have prefixRun := analyzeModules_take engine source clock 0 0 unsetBefore setThere
        rw [analyze_of_split split, analyze_of_split splitFirst, prefixRun]
        cases engine.analyzeModules source .never clock 0 0
            ((childrenOf raw).items.take count) <;> rfl
      · rw [decide_eq_true_iff, stopsWithin, named]
        simp

/-- A source file with an import that cannot be read, a dump that is no tree, and
the same import again. -/
def threeChildren : Value :=
  sourceFileDump [] [importingModule "all", .null, importingModule "all"]

theorem analyze_cancelled_eq_truncated_first :
    IsSourceFile threeChildren ∧
      ofDefaults.analyze threeChildren (some "lib/a.ex") (1 ≤ ·) (fun _ => .zero false) =
        .ok ⟨"lib/a.ex", [.engineError "A: import only entry 'all' is not name/arity"
          ⟨"lib/a.ex", ⟨3, 5, 3, 5⟩⟩], 1, true⟩ := by
  have first : ofDefaults.analyze (truncated 1 threeChildren) (some "lib/a.ex") .never
      (fun _ => .zero false) =
        .ok ⟨"lib/a.ex", [.engineError "A: import only entry 'all' is not name/arity"
          ⟨"lib/a.ex", ⟨3, 5, 3, 5⟩⟩], 1, false⟩ := by
    decide +kernel
  obtain ⟨stopped, same, stops⟩ := analyze_cancelled_eq_truncated ofDefaults threeChildren rfl
    (some "lib/a.ex") (fun _ => .zero false) (1 ≤ ·) 1 (by decide) (fun _ => rfl)
  have isStopped : stopped = true := stops.mpr ⟨rfl, 1, by decide, rfl⟩
  refine ⟨rfl, ?_⟩
  rw [same, first, isStopped]
  rfl

end Engine
end StyleAudit
