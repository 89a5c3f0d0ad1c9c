import StyleAudit.Proofs.Number.Overflow
import StyleAudit.Proofs.Settings.Reading
import StyleAudit.Proofs.Table

/-!
# Settings that are accepted but not usable

A null is accepted under every key of a section. It stands for the default of its setting, except
under the keys of numbers, where it is a fault, and of texts, where it reads as a word
(`AgreesUnlessBlank`). A time budget that no double can hold is the only other setting that is
accepted and then has no value (`Config.moduleTimeout?_eq_error_iff`).

* `Config.values?` collects the values of all settings.
* `withoutBlanks` drops the entries of a section that are null.
* `Config.exists_values_iff` says which sections have the same values without them.
-/

namespace StyleAudit

variable {entries : Section} {key : String} {config : Config}

/-! ## Null entries -/

/-- The value is null. -/
def Value.isNull : Value → Bool
  | null => true
  | _ => false

/-- The entries of a section that are not null. -/
def withoutBlanks (entries : Section) : Section :=
  entries.filter fun entry => !entry.2.isNull

/-- The entry of a key is null. -/
def leavesBlank (entries : Section) (key : String) : Bool :=
  (entries.lookup key).any Value.isNull

theorem Value.isNull_iff {value : Value} : value.isNull = true ↔ value = .null := by
  cases value <;> simp [isNull]

theorem leavesBlank_iff : leavesBlank entries key = true ↔ entries.lookup key = some .null := by
  unfold leavesBlank
  cases entries.lookup key <;> simp [Value.isNull_iff]

theorem lookup_withoutBlanks (distinct : (entries.map (·.1)).Nodup) (key : String) :
    (withoutBlanks entries).lookup key = (entries.lookup key).filter fun value => !value.isNull :=
  lookup_filter_values (fun value : Value => !value.isNull) distinct key

namespace Setting

variable {α : Type} {reader : Value → Except ConfigError α} {setting : Setting α}

/-- A setting with nothing in place of a blank. -/
def unblanked : Setting α → Setting α
  | blank => absent
  | setting => setting

/-- A setting reads the same without the blank entries, but that it is no longer
given if it was blank. -/
theorem IsRead.withoutBlanks (distinct : (entries.map (·.1)).Nodup)
    (isRead : IsRead entries key reader setting) :
    IsRead (withoutBlanks entries) key reader setting.unblanked := by
  cases isRead with
  | absent missing =>
      refine .absent ?_
      rw [lookup_withoutBlanks distinct, missing]
      rfl
  | blank isNull =>
      refine .absent ?_
      rw [lookup_withoutBlanks distinct, isNull]
      rfl
  | @given held _ found notNull accepted =>
      refine .given ?_ notNull accepted
      have kept : held.isNull = false := by
        rwa [← Bool.not_eq_true, Value.isNull_iff]
      rw [lookup_withoutBlanks distinct, found]
      simp [Option.filter, kept]

theorem value?_unblanked (setting : Setting α) : setting.unblanked.value? = setting.value? := by
  cases setting <;> rfl

theorem IsRead.leavesBlank_iff (isRead : IsRead entries key reader setting) :
    leavesBlank entries key = true ↔ setting = .blank :=
  StyleAudit.leavesBlank_iff.trans isRead.blank_iff.symm

/-- Whatever is made of a setting, only a blank makes it differ from what is made without it. -/
theorem IsRead.apply_unblanked {β : Type} (isRead : IsRead entries key reader setting)
    (use : Setting α → β) :
    use setting = if leavesBlank entries key then use .blank else use setting.unblanked := by
  by_cases isBlank : setting = .blank
  · rw [if_pos (isRead.leavesBlank_iff.mpr isBlank), isBlank]
  · have isSame : setting.unblanked = setting := by
      cases setting with
      | blank => exact absurd rfl isBlank
      | _ => rfl
    rw [if_neg (mt isRead.leavesBlank_iff.mp isBlank), isSame]

end Setting

namespace Config

/-- A configuration with nothing in place of its blanks. -/
def unblanked (config : Config) : Config where
  entries := withoutBlanks config.entries
  contextDepth := config.contextDepth.unblanked
  maxWorkers := config.maxWorkers.unblanked
  moduleTimeout := config.moduleTimeout.unblanked
  disabledRules := config.disabledRules.unblanked
  trustedModules := config.trustedModules.unblanked
  optionNames := config.optionNames.unblanked
  guardMark := config.guardMark.unblanked
  predicateMark := config.predicateMark.unblanked
  testSupport := config.testSupport.unblanked

theorem Reads.withoutBlanks (distinct : (entries.map (·.1)).Nodup) (reads : config.Reads entries) :
    config.unblanked.Reads (withoutBlanks entries) where
  sameEntries := congrArg StyleAudit.withoutBlanks reads.sameEntries
  contextDepth := reads.contextDepth.withoutBlanks distinct
  maxWorkers := reads.maxWorkers.withoutBlanks distinct
  moduleTimeout := reads.moduleTimeout.withoutBlanks distinct
  disabledRules := reads.disabledRules.withoutBlanks distinct
  trustedModules := reads.trustedModules.withoutBlanks distinct
  optionNames := reads.optionNames.withoutBlanks distinct
  guardMark := reads.guardMark.withoutBlanks distinct
  predicateMark := reads.predicateMark.withoutBlanks distinct
  testSupport := reads.testSupport.withoutBlanks distinct

/-! ## Values of settings -/

/-- The values of all settings. -/
structure Values where
  contextDepth : Nat
  maxWorkers : Nat
  moduleTimeout : Option Binary64
  disabled : List String
  trusted : List String
  optionNames : List String
  guardBeginning : String
  predicateEnding : String
  supportTable : List (String × Capability)
  hasTestSupport : Bool

/-- The values of all settings, or why one of them has none. -/
def values? (config : Config) : Except SettingFault Values := do
  let contextDepth ← config.contextDepth?
  let maxWorkers ← config.maxWorkers?
  let moduleTimeout ← config.moduleTimeout?
  return {
    contextDepth, maxWorkers, moduleTimeout
    disabled := config.disabled
    trusted := config.trusted
    optionNames := config.optionParameterNames
    guardBeginning := config.guardBeginning
    predicateEnding := config.predicateEnding
    supportTable := config.supportTable
    hasTestSupport := config.hasTestSupport }

theorem values?_eq_ok_iff {values : Values} :
    config.values? = .ok values ↔
      config.contextDepth? = .ok values.contextDepth ∧
      config.maxWorkers? = .ok values.maxWorkers ∧
      config.moduleTimeout? = .ok values.moduleTimeout ∧
      values.disabled = config.disabled ∧ values.trusted = config.trusted ∧
      values.optionNames = config.optionParameterNames ∧
      values.guardBeginning = config.guardBeginning ∧
      values.predicateEnding = config.predicateEnding ∧
      values.supportTable = config.supportTable ∧
      values.hasTestSupport = config.hasTestSupport := by
  simp only [values?, Outcome.bind_eq_ok_iff]
  constructor
  · rintro ⟨_, depth, _, workers, _, timeout, same⟩
    cases same
    exact ⟨depth, workers, timeout, rfl, rfl, rfl, rfl, rfl, rfl, rfl⟩
  · rintro ⟨depth, workers, timeout, disabled, trusted, names, beginning, ending, support, has⟩
    refine ⟨_, depth, _, workers, _, timeout, ?_⟩
    rw [← disabled, ← trusted, ← names, ← beginning, ← ending, ← support, ← has]
    rfl

/-- A time budget fails to be used only if it is a whole number beyond all finite
doubles. -/
theorem moduleTimeout?_eq_error_iff {fault : SettingFault} :
    config.moduleTimeout? = .error fault ↔
      fault = .timeoutTooLarge ∧
        ∃ seconds, config.moduleTimeout = .given (.whole seconds) ∧
          Binary64.firstInfinite ≤ seconds := by
  cases given : config.moduleTimeout with
  | given budget =>
      cases budget with
      | whole seconds =>
          simp only [moduleTimeout?, given, Setting.given.injEq, Budget.whole.injEq,
            exists_eq_left', ← Binary64.ofInt_infinite_iff]
          cases Binary64.ofInt seconds <;> simp [eq_comm]
      | real seconds => simp [moduleTimeout?, given]
  | _ => simp [moduleTimeout?, given]

end Config

theorem readBudget_eq_whole_iff {held : Value} {seconds : Nat} :
    readBudget key held = .ok (.whole seconds) ↔ held = .int seconds ∧ 0 < seconds := by
  cases held with
  | int value =>
      simp only [readBudget, Value.int.injEq]
      split_ifs with notPositive
      · simp only [false_iff]
        omega
      · simp only [Except.ok.injEq, Budget.whole.injEq]
        omega
  | float value =>
      simp only [readBudget]
      split_ifs <;> simp
  | _ => simp [readBudget]

namespace Config

theorem whole_of_reads (reads : config.Reads entries) {seconds : Nat} :
    config.moduleTimeout = .given (.whole seconds) ↔
      entries.lookup "module_timeout" = some (.int seconds) ∧ 0 < seconds := by
  rw [reads.moduleTimeout.given_iff]
  constructor
  · rintro ⟨held, found, _, isBudget⟩
    obtain ⟨rfl, positive⟩ := readBudget_eq_whole_iff.mp isBudget
    exact ⟨found, positive⟩
  · rintro ⟨found, positive⟩
    exact ⟨_, found, nofun, readBudget_eq_whole_iff.mpr ⟨rfl, positive⟩⟩

/-- The time budget has no value just where it is an integer beyond the doubles. -/
theorem exists_moduleTimeout?_error_iff (reads : config.Reads entries) :
    (∃ fault, config.moduleTimeout? = .error fault) ↔
      ∃ seconds : Nat, entries.lookup "module_timeout" = some (.int seconds) ∧
        Binary64.firstInfinite ≤ seconds := by
  constructor
  · rintro ⟨fault, failed⟩
    obtain ⟨_, seconds, isWhole, large⟩ := moduleTimeout?_eq_error_iff.mp failed
    exact ⟨seconds, ((whole_of_reads reads).mp isWhole).1, large⟩
  · rintro ⟨seconds, found, large⟩
    have isWhole := (whole_of_reads reads).mpr ⟨found, Binary64.firstInfinite_pos.trans_le large⟩
    exact ⟨_, moduleTimeout?_eq_error_iff.mpr ⟨rfl, seconds, isWhole, large⟩⟩

theorem exists_moduleTimeout?_iff (reads : config.Reads entries) :
    (∃ timeout, config.moduleTimeout? = .ok timeout) ↔
      ∀ seconds : Nat, entries.lookup "module_timeout" = some (.int seconds) →
        seconds < Binary64.firstInfinite := by
  have isOpposite : (∃ timeout, config.moduleTimeout? = .ok timeout) ↔
      ¬∃ fault, config.moduleTimeout? = .error fault := by
    cases config.moduleTimeout? <;> simp
  rw [isOpposite, exists_moduleTimeout?_error_iff reads]
  simp only [not_exists, not_and, Nat.not_le]

/-! ## Values with and without the blanks -/

theorem exists_number_unblanked (setting : Setting Nat) (default : Nat) :
    ∃ value, number setting.unblanked default = .ok value := by
  cases setting <;> exact ⟨_, rfl⟩

theorem exists_number_iff {reader : Value → Except ConfigError Nat} {setting : Setting Nat}
    (isRead : Setting.IsRead entries key reader setting) (default : Nat) :
    (∃ value, number setting default = .ok value) ↔ leavesBlank entries key = false := by
  rw [isRead.apply_unblanked (number · default)]
  cases leavesBlank entries key with
  | true => simp [number]
  | false => simpa using exists_number_unblanked setting default

theorem word_eq_unblanked_iff {reader : Value → Except ConfigError String}
    {setting : Setting String} (isRead : Setting.IsRead entries key reader setting)
    (default : String) (isOther : default ≠ "None") :
    word setting default = word setting.unblanked default ↔ leavesBlank entries key = false := by
  rw [isRead.apply_unblanked (word · default)]
  cases blank : leavesBlank entries key with
  | true =>
      obtain rfl := isRead.leavesBlank_iff.mp blank
      simpa [Setting.unblanked, word] using isOther.symm
  | false => simp

/-- What the values of a configuration have to do with those of the one without blanks: they are
the same, but for the blank numbers and texts. -/
structure AgreesUnlessBlank (entries : Section) (config stripped : Config) : Prop where
  contextDepth : config.contextDepth? =
    if leavesBlank entries "context_depth" then .error .blankNumber else stripped.contextDepth?
  maxWorkers : config.maxWorkers? =
    if leavesBlank entries "max_workers" then .error .blankNumber else stripped.maxWorkers?
  guardBeginning : config.guardBeginning =
    if leavesBlank entries "guard_prefix" then "None" else stripped.guardBeginning
  predicateEnding : config.predicateEnding =
    if leavesBlank entries "predicate_suffix" then "None" else stripped.predicateEnding
  moduleTimeout : config.moduleTimeout? = stripped.moduleTimeout?
  disabled : config.disabled = stripped.disabled
  trusted : config.trusted = stripped.trusted
  optionNames : config.optionParameterNames = stripped.optionParameterNames
  supportTable : config.supportTable = stripped.supportTable
  hasTestSupport : config.hasTestSupport = stripped.hasTestSupport

theorem Reads.agreesUnlessBlank (reads : config.Reads entries) :
    AgreesUnlessBlank entries config config.unblanked where
  contextDepth := reads.contextDepth.apply_unblanked (number · Defaults.contextDepth)
  maxWorkers := reads.maxWorkers.apply_unblanked (number · Defaults.maxWorkers)
  guardBeginning := reads.guardMark.apply_unblanked (word · Defaults.guardMark)
  predicateEnding := reads.predicateMark.apply_unblanked (word · Defaults.predicateMark)
  moduleTimeout := by
    simp only [moduleTimeout?, unblanked]
    cases config.moduleTimeout <;> rfl
  disabled := by simp only [disabled, unblanked, Setting.value?_unblanked]
  trusted := by simp only [trusted, unblanked, Setting.value?_unblanked]
  optionNames := by simp only [optionParameterNames, unblanked, Setting.value?_unblanked]
  supportTable := by simp only [supportTable, unblanked, Setting.value?_unblanked]
  hasTestSupport := by simp only [hasTestSupport, unblanked, Setting.value?_unblanked]

/-- The keys under which a null does not stand for the default. -/
def keysWithoutBlanks : List String :=
  ["context_depth", "max_workers", "guard_prefix", "predicate_suffix"]

theorem forall_keysWithoutBlanks {holds : String → Prop} :
    (∀ key ∈ keysWithoutBlanks, holds key) ↔
      holds "context_depth" ∧ holds "max_workers" ∧ holds "guard_prefix" ∧
        holds "predicate_suffix" := by
  simp [keysWithoutBlanks]

theorem AgreesUnlessBlank.values?_eq {stripped : Config}
    (agrees : AgreesUnlessBlank entries config stripped)
    (noneBlank : ∀ key ∈ keysWithoutBlanks, leavesBlank entries key = false) :
    config.values? = stripped.values? := by
  obtain ⟨notDepth, notWorkers, notGuard, notPredicate⟩ := forall_keysWithoutBlanks.mp noneBlank
  simp only [values?, agrees.contextDepth, agrees.maxWorkers, agrees.guardBeginning,
    agrees.predicateEnding, agrees.moduleTimeout, agrees.disabled, agrees.trusted,
    agrees.optionNames, agrees.supportTable, agrees.hasTestSupport, notDepth, notWorkers, notGuard,
    notPredicate, Bool.false_eq_true, if_false]

/-- All settings can be used exactly when none that needs a value is blank and the
time budget can be used. -/
theorem exists_values_iff (reads : config.Reads entries) :
    (∃ values, config.values? = .ok values ∧ config.unblanked.values? = .ok values) ↔
      (∀ key ∈ keysWithoutBlanks, leavesBlank entries key = false) ∧
        ∃ timeout, config.moduleTimeout? = .ok timeout := by
  have depthIff : (∃ depth, config.contextDepth? = .ok depth) ↔
      leavesBlank entries "context_depth" = false :=
    exists_number_iff reads.contextDepth _
  have workersIff : (∃ workers, config.maxWorkers? = .ok workers) ↔
      leavesBlank entries "max_workers" = false :=
    exists_number_iff reads.maxWorkers _
  constructor
  · rintro ⟨values, given, stripped⟩
    obtain ⟨depth, workers, timeout, -, -, -, beginning, ending, -⟩ := values?_eq_ok_iff.mp given
    obtain ⟨-, -, -, -, -, -, beginning', ending', -⟩ := values?_eq_ok_iff.mp stripped
    have notGuard : leavesBlank entries "guard_prefix" = false :=
      (word_eq_unblanked_iff reads.guardMark _ (by decide)).mp (beginning.symm.trans beginning')
    have notPredicate : leavesBlank entries "predicate_suffix" = false :=
      (word_eq_unblanked_iff reads.predicateMark _ (by decide)).mp (ending.symm.trans ending')
    exact ⟨forall_keysWithoutBlanks.mpr ⟨depthIff.mp ⟨_, depth⟩, workersIff.mp ⟨_, workers⟩,
      notGuard, notPredicate⟩, _, timeout⟩
  · rintro ⟨noneBlank, timeout, isTimeout⟩
    obtain ⟨notDepth, notWorkers, _⟩ := forall_keysWithoutBlanks.mp noneBlank
    obtain ⟨depth, isDepth⟩ := depthIff.mpr notDepth
    obtain ⟨workers, areWorkers⟩ := workersIff.mpr notWorkers
    obtain ⟨values, found⟩ : ∃ values, config.values? = .ok values := by
      rw [values?, isDepth, areWorkers, isTimeout]
      exact ⟨_, rfl⟩
    exact ⟨values, found, reads.agreesUnlessBlank.values?_eq noneBlank ▸ found⟩

/-- A section that is accepted is accepted without its null entries, and its settings have the same
values then just where no number and no text is null and the time budget is below the first integer
beyond the doubles. -/
theorem accepted_withoutBlanks (distinct : (entries.map (·.1)).Nodup)
    (accepted : ofSection entries = .ok config) :
    ∃ stripped, ofSection (withoutBlanks entries) = .ok stripped ∧
      AgreesUnlessBlank entries config stripped ∧
      ((∃ values, config.values? = .ok values ∧ stripped.values? = .ok values) ↔
        (∀ key ∈ keysWithoutBlanks, leavesBlank entries key = false) ∧
        ∀ seconds : Nat, entries.lookup "module_timeout" = some (.int seconds) →
          seconds < Binary64.firstInfinite) := by
  have reads := ofSection_eq_ok_iff.mp accepted
  have agrees := reads.agreesUnlessBlank
  refine ⟨config.unblanked, ofSection_eq_ok_iff.mpr (reads.withoutBlanks distinct), agrees, ?_⟩
  rw [exists_values_iff reads, exists_moduleTimeout?_iff reads]

theorem accepted_withoutBlanks_disabledRules :
    ∃ config stripped,
      ofSection [("context_depth", .int 2), ("disabled_rules", .null),
        ("module_timeout", .int 5)] = .ok config ∧
      ofSection [("context_depth", .int 2), ("module_timeout", .int 5)] = .ok stripped ∧
      ∃ values, config.values? = .ok values ∧ stripped.values? = .ok values := by
  obtain ⟨stripped, accepted, _, same⟩ := accepted_withoutBlanks
    (show ((([("context_depth", .int 2), ("disabled_rules", .null), ("module_timeout", .int 5)] :
      Section)).map (·.1)).Nodup by decide) rfl
  refine ⟨_, stripped, rfl, accepted, same.mpr ⟨by decide, ?_⟩⟩
  intro seconds found
  cases found
  decide +kernel

/-- A null is accepted for a number, which then has no value. -/
theorem contextDepth?_of_null :
    ∃ config stripped,
      ofSection [("context_depth", .null)] = .ok config ∧
      config.contextDepth? = .error .blankNumber ∧
      ofSection (withoutBlanks [("context_depth", .null)]) = .ok stripped ∧
      stripped.contextDepth? = .ok Defaults.contextDepth :=
  ⟨_, _, rfl, rfl, rfl, rfl⟩

end Config

end StyleAudit
