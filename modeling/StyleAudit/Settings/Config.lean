import StyleAudit.Settings.Defaults
import StyleAudit.Settings.Notice
import StyleAudit.Text.Affix

/-!
# Configuration

A section of settings is a table. `Config.ofSection` reads it, or says which
setting is wrong; a key may also be left blank by a null. The functions on
`Config` give the value of each setting, with the default where there is none.
-/

namespace StyleAudit

abbrev Section := List (String × Value)

/-- What is wrong with a section. -/
inductive ConfigError
  | notPositiveInteger (key : String) (found : Value)
  | notPositiveNumber (key : String) (found : Value)
  | notTextList (key : String)
  | notText (key : String)
  | supportNotTable
  | baseNotTable (base : String)
  | emptyCapability (base : String)
  | hallmarksNotTexts (base : String)
  deriving Repr

def ConfigError.message : ConfigError → String
  | notPositiveInteger key found => s!"'{key}' must be a positive integer, got {found.display}"
  | notPositiveNumber key found => s!"'{key}' must be a positive number, got {found.display}"
  | notTextList key => s!"'{key}' must be a list of strings"
  | notText key => s!"'{key}' must be a string"
  | supportNotTable => "'test_support' must be a table of support bases"
  | baseNotTable base => s!"test_support.{base} must be a table"
  | emptyCapability base => s!"test_support.{base}.capability must be a non-empty string"
  | hallmarksNotTexts base => s!"test_support.{base}.hallmarks must be a list of strings"

/-- A setting that was accepted but has no usable value. -/
inductive SettingFault
  | blankNumber
  | timeoutTooLarge
  deriving DecidableEq, Repr

def SettingFault.message : SettingFault → String
  | blankNumber =>
    "int() argument must be a string, a bytes-like object or a real number, not 'NoneType'"
  | timeoutTooLarge => "int too large to convert to float"

/-- A setting of a section: not there, left blank by a null, or given. -/
inductive Setting (α : Type)
  | absent
  | blank
  | given (value : α)
  deriving Repr

namespace Setting

def value? {α : Type} : Setting α → Option α
  | given value => some value
  | _ => none

/-- Read a setting of a section, unless it is absent or null. -/
def read {α : Type} (entries : Section) (key : String) (reader : Value → Except ConfigError α) :
    Except ConfigError (Setting α) :=
  match entries.lookup key with
  | none => .ok absent
  | some .null => .ok blank
  | some value => (reader value).map given

end Setting

/-! ## Values of settings -/

def readPositive (key : String) : Value → Except ConfigError Nat
  | .int value =>
    if value < 1 then .error (.notPositiveInteger key (.int value)) else .ok value.toNat
  | found => .error (.notPositiveInteger key found)

/-- A time budget in seconds, as it was given. -/
inductive Budget
  | whole (seconds : Nat)
  | real (seconds : Binary64)
  deriving DecidableEq, Repr

def readBudget (key : String) : Value → Except ConfigError Budget
  | .int value =>
    if value ≤ 0 then .error (.notPositiveNumber key (.int value)) else .ok (.whole value.toNat)
  | .float value =>
    if value.isNonPositive then .error (.notPositiveNumber key (.float value))
    else .ok (.real value)
  | found => .error (.notPositiveNumber key found)

def textItems? : Value → Option (List String)
  | .list items => items.mapM Value.text?
  | _ => none

def readTexts (key : String) (value : Value) : Except ConfigError (List String) :=
  match textItems? value with
  | some texts => .ok texts
  | none => .error (.notTextList key)

def readPlainText (key : String) : Value → Except ConfigError String
  | .text value => .ok value
  | _ => .error (.notText key)

/-- A test support base with its capability and hallmarks. -/
def readCapability (base : String) (entry : Value) : Except ConfigError Capability :=
  match entry.entries? with
  | none => .error (.baseNotTable base)
  | some fields =>
    match ((fields.lookup "capability").bind Value.text?).filter (· ≠ "") with
    | none => .error (.emptyCapability base)
    | some provides =>
      match (fields.lookup "hallmarks").bind textItems? with
      | none => .error (.hallmarksNotTexts base)
      | some hallmarks => .ok ⟨provides, hallmarks⟩

def readTestSupport : Value → Except ConfigError (List (String × Capability))
  | .table bases => bases.mapM fun (base, entry) => do
    return (base, ← readCapability base entry)
  | _ => .error .supportNotTable

def Capability.toValue (capability : Capability) : Value :=
  .table [("capability", .text capability.provides),
    ("hallmarks", .list (capability.hallmarks.map .text))]

def testSupportValue (support : List (String × Capability)) : Value :=
  .table (support.map fun (base, capability) => (base, capability.toValue))

/-! ## Sections -/

/-- A section whose settings were all accepted. -/
structure Config where
  entries : Section
  contextDepth : Setting Nat
  maxWorkers : Setting Nat
  moduleTimeout : Setting Budget
  disabledRules : Setting (List String)
  trustedModules : Setting (List String)
  optionNames : Setting (List String)
  guardMark : Setting String
  predicateMark : Setting String
  testSupport : Setting (List (String × Capability))
  deriving Repr

namespace Config

def knownKeys : List String :=
  ["context_depth", "disabled_rules", "trusted_modules", "option_parameter_names",
    "guard_prefix", "predicate_suffix", "test_support", "max_workers", "module_timeout"]

def notices (entries : Section) : List Notice :=
  (entries.filter fun entry => !knownKeys.contains entry.1).map fun entry => .unknownKey entry.1

def ofSection (entries : Section) : Except ConfigError Config := do
  let contextDepth ← Setting.read entries "context_depth" (readPositive "context_depth")
  let maxWorkers ← Setting.read entries "max_workers" (readPositive "max_workers")
  let moduleTimeout ← Setting.read entries "module_timeout" (readBudget "module_timeout")
  let disabledRules ← Setting.read entries "disabled_rules" (readTexts "disabled_rules")
  let trustedModules ← Setting.read entries "trusted_modules" (readTexts "trusted_modules")
  let optionNames ←
    Setting.read entries "option_parameter_names" (readTexts "option_parameter_names")
  let guardMark ← Setting.read entries "guard_prefix" (readPlainText "guard_prefix")
  let predicateMark ← Setting.read entries "predicate_suffix" (readPlainText "predicate_suffix")
  let testSupport ← Setting.read entries "test_support" readTestSupport
  return {
    entries, contextDepth, maxWorkers, moduleTimeout, disabledRules, trustedModules, optionNames,
    guardMark, predicateMark, testSupport }

/-- The entries of a configuration with those changed that are not null. -/
def overridden (config : Config) (changes : Section) : Section :=
  Value.mergeEntries config.entries (changes.filter fun entry =>
    match entry.2 with
    | .null => false
    | _ => true)

/-- A number setting; one that was left blank has no value. -/
def number (setting : Setting Nat) (default : Nat) : Except SettingFault Nat :=
  match setting with
  | .absent => .ok default
  | .blank => .error .blankNumber
  | .given value => .ok value

/-- A text setting; one that was left blank reads as the word for null. -/
def word (setting : Setting String) (default : String) : String :=
  match setting with
  | .absent => default
  | .blank => "None"
  | .given value => value

/-- The number of segments a module name may have before it is internal. -/
def contextDepth? (config : Config) : Except SettingFault Nat :=
  number config.contextDepth Defaults.contextDepth

def maxWorkers? (config : Config) : Except SettingFault Nat :=
  number config.maxWorkers Defaults.maxWorkers

def moduleTimeout? (config : Config) : Except SettingFault (Option Binary64) :=
  match config.moduleTimeout with
  | .given (.whole seconds) =>
    match Binary64.ofInt seconds with
    | .infinite _ => .error .timeoutTooLarge
    | value => .ok (some value)
  | .given (.real seconds) => .ok (some seconds)
  | _ => .ok none

def disabled (config : Config) : List String :=
  config.disabledRules.value?.getD []

/-- The modules whose failures are known: the standard ones and those given. -/
def trusted (config : Config) : List String :=
  Defaults.trustedModules ++ config.trustedModules.value?.getD []

def optionParameterNames (config : Config) : List String :=
  config.optionNames.value?.getD Defaults.optionNames

def guardBeginning (config : Config) : String :=
  word config.guardMark Defaults.guardMark

def predicateEnding (config : Config) : String :=
  word config.predicateMark Defaults.predicateMark

/-- The test support bases, none unless they are given. -/
def supportTable (config : Config) : List (String × Capability) :=
  config.testSupport.value?.getD []

def hasTestSupport (config : Config) : Bool :=
  config.testSupport.value?.isSome

def ruleSettings (config : Config) : RuleSettings :=
  { trusted := config.trusted
    testSupport := config.supportTable
    guardMark := config.guardBeginning
    predicateMark := config.predicateEnding
    optionNames := config.optionParameterNames }

end Config

/-- A section with the standard test support bases, unless it has its own. -/
def withStandardSupport (entries : Section) : Section :=
  Value.mergeEntries [("test_support", testSupportValue Defaults.testSupport)] entries

end StyleAudit
