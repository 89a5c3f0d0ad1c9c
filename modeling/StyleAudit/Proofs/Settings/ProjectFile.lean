import StyleAudit.Proofs.Document.TomlValues
import StyleAudit.Proofs.Settings.Usable
import StyleAudit.Settings.ProjectFile

/-!
# The section of a project file

The section of a project file should be the table under its two keys, empty where one of them is
absent, and any other value there should be an error (`ProjectFile.promised`). It is read like this
unless a value that is no table stands under the first key, or one that counts as empty under the
second (`ProjectFile.sectionIn_eq_promised_iff`).

A section that is read from a document leaves no setting blank, also with the standard test support
bases (`lookup_withStandardSupport_ne_null`).
-/

namespace StyleAudit

variable {entries changes : Section} {key file : String}

/-! ## Tables under keys -/

namespace ProjectFile

/-- The table under a key: an empty one if the key is absent, none if something else is there. -/
def tableUnder? (entries : Section) (key : String) : Option Section :=
  match entries.lookup key with
  | none => some []
  | some held => held.entries?

/-- The section under the two keys, if they lead to a table. -/
def promised? (entries : Section) : Option Section :=
  (tableUnder? entries toolKey).bind fun tools => tableUnder? tools sectionKey

/-- The section under the two keys; it is an error if they lead to something else. -/
def promised (file : String) (entries : Section) : Except ProjectFault Section :=
  match promised? entries with
  | some given => .ok given
  | none => .error (.sectionNotTable file)

variable {table tools given : Section} {held : Value}

theorem promised_eq_ok_iff :
    promised file entries = .ok given ↔ promised? entries = some given := by
  unfold promised
  cases promised? entries <;> simp

theorem promised_of_none (file : String) (misplaced : promised? entries = none) :
    promised file entries = .error (.sectionNotTable file) := by
  rw [promised, misplaced]

theorem tableUnder?_eq_none_iff :
    tableUnder? entries key = none ↔
      ∃ held, entries.lookup key = some held ∧ held.entries? = none := by
  unfold tableUnder?
  cases entries.lookup key <;> simp

/-- Where there is a table under a key, or nothing, the look-up of a given table
succeeds with it. -/
theorem givenTable_of_tableUnder? (found : tableUnder? entries key = some table) :
    givenTable entries key = .ok table := by
  unfold tableUnder? at found
  cases isHeld : entries.lookup key with
  | none =>
      rw [isHeld] at found
      cases found
      simp [givenTable, isHeld]
  | some held =>
      rw [isHeld] at found
      cases held with
      | table inside =>
          cases found
          cases table <;> simp [givenTable, isHeld, Option.filter, Value.isGiven]
      | _ => cases found

/-- A value that is no table is an error or, if it counts as empty, an empty table. -/
theorem givenTable_of_misplaced (isHeld : entries.lookup key = some held)
    (isOther : held.entries? = none) :
    givenTable entries key = if held.isGiven then .error held else .ok [] := by
  cases isGiven : held.isGiven with
  | false => simp [givenTable, isHeld, Option.filter, isGiven]
  | true =>
      cases held with
      | table => cases isOther
      | _ => simp [givenTable, isHeld, Option.filter, isGiven]

theorem sectionIn_of_tableUnder? (found : tableUnder? entries toolKey = some tools) :
    sectionIn file entries =
      (givenTable tools sectionKey).mapError fun _ => .sectionNotTable file := by
  rw [sectionIn, givenTable_of_tableUnder? found]
  rfl

theorem sectionIn_of_misplaced (isHeld : entries.lookup toolKey = some held)
    (isOther : held.entries? = none) :
    sectionIn file entries = if held.isGiven then .error (.toolNotTable held) else .ok [] := by
  rw [sectionIn, givenTable_of_misplaced isHeld isOther]
  cases held.isGiven <;> rfl

theorem sectionIn_of_promised? (found : promised? entries = some given) :
    sectionIn file entries = .ok given := by
  obtain ⟨tools, isTools, isGiven⟩ := Option.bind_eq_some_iff.mp found
  rw [sectionIn_of_tableUnder? isTools, givenTable_of_tableUnder? isGiven]
  rfl

/-- Nothing but a table stands under the first key, and nothing that counts as empty but is no
table under the second. -/
def WellPlaced (entries : Section) : Prop :=
  ∃ tools, tableUnder? entries toolKey = some tools ∧
    ∀ held, tools.lookup sectionKey = some held → held.entries? = none → held.isGiven = true

/-- The section is read as promised just where no misplaced value goes unnoticed. -/
theorem sectionIn_eq_promised_iff :
    sectionIn file entries = promised file entries ↔ WellPlaced entries := by
  cases isTools : tableUnder? entries toolKey with
  | none =>
      obtain ⟨held, isHeld, isOther⟩ := tableUnder?_eq_none_iff.mp isTools
      have isError : promised file entries = .error (.sectionNotTable file) :=
        promised_of_none file (by simp [promised?, isTools])
      rw [sectionIn_of_misplaced isHeld isOther, isError]
      cases held.isGiven <;> simp [WellPlaced, isTools]
  | some tools =>
      cases isGiven : tableUnder? tools sectionKey with
      | some given =>
          have found : promised? entries = some given := by
            simp [promised?, isTools, isGiven]
          have nothingElse (held : Value) (isHeld : tools.lookup sectionKey = some held) :
              held.entries? ≠ none := by
            intro isOther
            rw [tableUnder?_eq_none_iff.mpr ⟨held, isHeld, isOther⟩] at isGiven
            cases isGiven
          refine iff_of_true ?_ ⟨tools, isTools, fun held isHeld isOther =>
            absurd isOther (nothingElse held isHeld)⟩
          rw [sectionIn_of_promised? found, promised_eq_ok_iff.mpr found]
      | none =>
          obtain ⟨held, isHeld, isOther⟩ := tableUnder?_eq_none_iff.mp isGiven
          have isError : promised file entries = .error (.sectionNotTable file) :=
            promised_of_none file (by simp [promised?, isTools, isGiven])
          rw [sectionIn_of_tableUnder? isTools, givenTable_of_misplaced isHeld isOther, isError]
          cases isFull : held.isGiven <;>
            simp [WellPlaced, isTools, isHeld, isOther, isFull, Except.mapError]

theorem isToml_of_tableUnder? (isToml : (Value.table entries).IsToml)
    (found : tableUnder? entries key = some table) : (Value.table table).IsToml := by
  unfold tableUnder? at found
  cases isHeld : entries.lookup key with
  | none =>
      rw [isHeld] at found
      cases found
      exact .table List.nodup_nil nofun
  | some held =>
      rw [isHeld] at found
      cases held with
      | table =>
          cases found
          exact isToml.of_lookup isHeld
      | _ => cases found

theorem isToml_of_promised? (isToml : (Value.table entries).IsToml)
    (found : promised? entries = some given) : (Value.table given).IsToml := by
  obtain ⟨tools, isTools, isGiven⟩ := Option.bind_eq_some_iff.mp found
  exact isToml_of_tableUnder? (isToml_of_tableUnder? isToml isTools) isGiven

end ProjectFile

/-! ## Nothing is left blank -/

theorem Value.IsToml.distinct (isToml : (Value.table entries).IsToml) :
    (entries.map (·.1)).Nodup := by
  cases isToml with
  | table once _ => exact once

theorem Value.IsToml.ne_null {value : Value} (isToml : value.IsToml) : value ≠ .null := by
  rintro rfl
  cases isToml

/-- After a merge a key has its changed value, or else the one it had. -/
theorem lookup_mergeEntries (distinct : (changes.map (·.1)).Nodup) (entries : Section) :
    (Value.mergeEntries entries changes).lookup key =
      (changes.lookup key).or (entries.lookup key) := by
  induction changes generalizing entries with
  | nil => rfl
  | cons change rest inductionHypothesis =>
      obtain ⟨name, value⟩ := change
      obtain ⟨isNew, distinctLater⟩ := List.nodup_cons.mp distinct
      have step : Value.mergeEntries entries ((name, value) :: rest) =
          Value.mergeEntries (putValue entries name value) rest := rfl
      rw [step, inductionHypothesis distinctLater, List.lookup_cons]
      by_cases here : key = name
      · subst here
        have absentLater : rest.lookup key = none := by
          cases found : rest.lookup key with
          | none => rfl
          | some held => exact absurd (mem_keys_iff.mpr ⟨held, found⟩) isNew
        rw [absentLater, lookup_putValue_self]
        simp
      · rw [lookup_putValue_of_ne _ _ here, beq_eq_false_iff_ne.mpr here]

theorem lookup_withStandardSupport (distinct : (entries.map (·.1)).Nodup) :
    (withStandardSupport entries).lookup key =
      (entries.lookup key).or
        (if key = "test_support" then some (testSupportValue Defaults.testSupport) else none) := by
  rw [withStandardSupport, lookup_mergeEntries distinct]
  by_cases here : key = "test_support"
  · simp [here]
  · simp [List.lookup_cons, here, beq_eq_false_iff_ne.mpr here]

/-- A section of a document leaves no setting blank. -/
theorem leavesBlank_withStandardSupport (isToml : (Value.table entries).IsToml) (key : String) :
    leavesBlank (withStandardSupport entries) key = false := by
  rw [← Bool.not_eq_true, leavesBlank_iff, lookup_withStandardSupport isToml.distinct]
  cases found : entries.lookup key with
  | none =>
      simp only [Option.none_or]
      split_ifs <;> simp [testSupportValue]
  | some held => simpa using (isToml.of_lookup found).ne_null

end StyleAudit
