import StyleAudit.Proofs.Outcome
import StyleAudit.Settings.Config

/-!
# Reading a section

A section is accepted when each of its settings is read (`Config.ofSection_eq_ok_iff`). A setting
is blank after that just where its entry is null (`Setting.blank_iff_of_read`).
-/

namespace StyleAudit

variable {entries : Section} {key : String}

/-- How a setting is read from the entry of its key. -/
inductive Setting.IsRead {α : Type} (entries : Section) (key : String)
    (reader : Value → Except ConfigError α) : Setting α → Prop
  | absent (missing : entries.lookup key = none) : IsRead entries key reader .absent
  | blank (isNull : entries.lookup key = some .null) : IsRead entries key reader .blank
  | given {held : Value} {value : α} (found : entries.lookup key = some held)
      (notNull : held ≠ .null) (accepted : reader held = .ok value) :
      IsRead entries key reader (.given value)

namespace Setting

variable {α : Type} {reader : Value → Except ConfigError α} {setting : Setting α} {value : α}

theorem read_of_lookup {held : Value} (found : entries.lookup key = some held)
    (notNull : held ≠ .null) : read entries key reader = (reader held).map given := by
  cases held with
  | null => exact absurd rfl notNull
  | _ => simp [read, found]

/-- What it takes to read a setting. -/
theorem read_eq_ok_iff :
    read entries key reader = .ok setting ↔ IsRead entries key reader setting := by
  constructor
  · intro accepted
    cases found : entries.lookup key with
    | none =>
        simp only [read, found, Except.ok.injEq] at accepted
        exact accepted ▸ .absent found
    | some held =>
        by_cases isNull : held = .null
        · subst isNull
          simp only [read, found, Except.ok.injEq] at accepted
          exact accepted ▸ .blank found
        · rw [read_of_lookup found isNull, Outcome.map_eq_ok_iff] at accepted
          obtain ⟨value, isRead, rfl⟩ := accepted
          exact .given found isNull isRead
  · rintro (missing | isNull | ⟨found, notNull, accepted⟩)
    · simp [read, missing]
    · simp [read, isNull]
    · rw [read_of_lookup found notNull, accepted]
      rfl

namespace IsRead

theorem blank_iff (isRead : IsRead entries key reader setting) :
    setting = .blank ↔ entries.lookup key = some .null := by
  cases isRead with
  | absent missing => simp [missing]
  | blank isNull => simp [isNull]
  | given found notNull => simp [found, notNull]

theorem given_iff (isRead : IsRead entries key reader setting) :
    setting = .given value ↔
      ∃ held, entries.lookup key = some held ∧ held ≠ .null ∧ reader held = .ok value := by
  cases isRead with
  | absent missing => simp [missing]
  | blank isNull => simp [isNull]
  | given found notNull accepted => simp [found, notNull, accepted]

end IsRead
end Setting

/-- Each setting of a configuration is read from the section. -/
structure Config.Reads (entries : Section) (config : Config) : Prop where
  sameEntries : config.entries = entries
  contextDepth : Setting.IsRead entries "context_depth" (readPositive "context_depth")
    config.contextDepth
  maxWorkers : Setting.IsRead entries "max_workers" (readPositive "max_workers")
    config.maxWorkers
  moduleTimeout : Setting.IsRead entries "module_timeout" (readBudget "module_timeout")
    config.moduleTimeout
  disabledRules : Setting.IsRead entries "disabled_rules" (readTexts "disabled_rules")
    config.disabledRules
  trustedModules : Setting.IsRead entries "trusted_modules" (readTexts "trusted_modules")
    config.trustedModules
  optionNames : Setting.IsRead entries "option_parameter_names"
    (readTexts "option_parameter_names") config.optionNames
  guardMark : Setting.IsRead entries "guard_prefix" (readPlainText "guard_prefix")
    config.guardMark
  predicateMark : Setting.IsRead entries "predicate_suffix" (readPlainText "predicate_suffix")
    config.predicateMark
  testSupport : Setting.IsRead entries "test_support" readTestSupport config.testSupport

/-- A section is accepted exactly when each of its settings can be read, and the
configuration holds what was read. -/
theorem Config.ofSection_eq_ok_iff {config : Config} :
    ofSection entries = .ok config ↔ config.Reads entries := by
  simp only [ofSection, Outcome.bind_eq_ok_iff, Setting.read_eq_ok_iff]
  constructor
  · rintro ⟨_, contextDepth, _, maxWorkers, _, moduleTimeout, _, disabledRules, _, trustedModules,
      _, optionNames, _, guardMark, _, predicateMark, _, testSupport, same⟩
    cases same
    exact ⟨rfl, contextDepth, maxWorkers, moduleTimeout, disabledRules, trustedModules,
      optionNames, guardMark, predicateMark, testSupport⟩
  · rintro ⟨rfl, contextDepth, maxWorkers, moduleTimeout, disabledRules, trustedModules,
      optionNames, guardMark, predicateMark, testSupport⟩
    exact ⟨_, contextDepth, _, maxWorkers, _, moduleTimeout, _, disabledRules, _, trustedModules,
      _, optionNames, _, guardMark, _, predicateMark, _, testSupport, rfl⟩

end StyleAudit
