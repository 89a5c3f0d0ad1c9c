import StyleAudit.CommandLine.Program
import StyleAudit.Proofs.Settings.ProjectFile
import StyleAudit.Proofs.Tree.Grammar

/-!
# Starting with a project file

A section of settings comes to an engine, is refused, or breaks the program (`Program.receive`). It
breaks the program just where its error shows a value that cannot be written, or its time budget is
beyond the doubles (`Program.receive_broken_iff`); a null, which would break it as well, is in no
document.

`Program.run_of_document` says for which documents the program keeps its promise: to read the
section under the two keys, to refuse whatever is wrong there, and to end with the exit code of an
error then.
-/

namespace StyleAudit

variable {given entries : Section} {config : Config}

/-! ## Sections -/

/-- What a section of settings comes to. -/
inductive Reception
  | usable (engine : Engine)
  | refused (error : EngineError)
  | broken (breakdown : Breakdown)

/-- What a section comes to, together with the standard test support bases. -/
def Program.receive (given : Section) : Reception :=
  match Config.ofSection (withStandardSupport given) with
  | .error error =>
    if error.isEndless then .broken (.launch .endlessError) else .refused (.config error)
  | .ok config =>
    match Engine.ofConfig config .standard with
    | .error (.setting fault) => .broken (.setting fault)
    | .error error => .refused error
    | .ok engine => .usable engine

namespace Engine

theorem supportError?_ne_setting {catalog : Catalog} {fault : SettingFault} :
    supportError? config catalog ≠ some (.setting fault) := by
  unfold supportError?
  split_ifs <;> nofun

/-- With a usable depth, only the time budget can be at fault, and only where the test support bases
are in order. -/
theorem ofConfig_setting_iff {depth : Nat} {fault : SettingFault}
    (isDepth : config.contextDepth? = .ok depth) :
    ofConfig config .standard = .error (.setting fault) ↔
      supportError? config (.ofConfig config) = none ∧
        config.moduleTimeout? = .error fault := by
  have isTest : contextTest config .standard = .ok (exceedsDepth depth) := by
    rw [contextTest, isDepth]
  rw [ofConfig, isTest, Outcome.ok_bind]
  cases support : supportError? config (.ofConfig config) with
  | some error =>
      have isOther : error ≠ .setting fault := by
        rintro rfl
        exact supportError?_ne_setting support
      simp only [support]
      change Except.error error = .error (.setting fault) ↔ _
      simp [isOther]
  | none =>
      simp only [support, true_and]
      cases config.moduleTimeout? with
      | ok timeout => exact iff_of_false nofun nofun
      | error cause =>
          change Except.error (EngineError.setting cause) = .error (.setting fault) ↔ _
          simp

end Engine

namespace Program

/-- The time budget of the section has no value, and nothing else stops its engine. -/
def IsTimeless (given : Section) (config : Config) : Prop :=
  Engine.supportError? config (.ofConfig config) = none ∧
    ∃ seconds : Nat, given.lookup "module_timeout" = some (.int seconds) ∧
      Binary64.firstInfinite ≤ seconds

theorem exists_ofConfig_setting_iff (isToml : (Value.table given).IsToml)
    (accepted : Config.ofSection (withStandardSupport given) = .ok config) :
    (∃ fault, Engine.ofConfig config .standard = .error (.setting fault)) ↔
      IsTimeless given config := by
  have reads := Config.ofSection_eq_ok_iff.mp accepted
  obtain ⟨depth, isDepth⟩ : ∃ depth, config.contextDepth? = .ok depth :=
    (Config.exists_number_iff reads.contextDepth _).mpr (leavesBlank_withStandardSupport isToml _)
  have sameTimeout :
      (withStandardSupport given).lookup "module_timeout" = given.lookup "module_timeout" := by
    rw [lookup_withStandardSupport isToml.distinct]
    simp
  simp only [Engine.ofConfig_setting_iff isDepth, exists_and_left, IsTimeless, ← sameTimeout]
  exact and_congr_right fun _ => Config.exists_moduleTimeout?_error_iff reads

/-- A section of a document breaks the program just where its error shows a value that cannot be
written, or its time budget is beyond the doubles. -/
theorem receive_broken_iff (isToml : (Value.table given).IsToml) :
    (∃ breakdown, receive given = .broken breakdown) ↔
      (∃ error, Config.ofSection (withStandardSupport given) = .error error ∧
        error.isEndless = true) ∨
      ∃ config, Config.ofSection (withStandardSupport given) = .ok config ∧
        IsTimeless given config := by
  unfold receive
  cases accepted : Config.ofSection (withStandardSupport given) with
  | error error => cases endless : error.isEndless <;> simp [endless]
  | ok config =>
      have settingIff := exists_ofConfig_setting_iff isToml accepted
      simp only [reduceCtorEq, false_and, exists_false, false_or, Except.ok.injEq,
        exists_eq_left', ← settingIff]
      cases built : Engine.ofConfig config .standard with
      | ok engine => simp
      | error error => cases error <;> simp

/-! ## Documents -/

variable {tree : FileTree} {home file : String} {path : Path} {bytes : List UInt8}
  {text : List Char} {clock : Clock} {arguments : List String}

/-- What is promised for the entries of a document: the section under the two keys is loaded,
anything else there is an error, and the section gives an engine or is refused. -/
structure KeepsPromise (file : String) (entries : Section)
    (loaded : Except ProjectFault Section) : Prop where
  isPromised : loaded = ProjectFile.promised file entries
  notBroken : ∀ given breakdown, loaded = .ok given → receive given ≠ .broken breakdown

/-- A document without the mishaps that the program does not guard against: no misplaced value goes
unnoticed, what is wrong can be written, and the time budget is no integer beyond the doubles. -/
structure Manageable (entries : Section) : Prop where
  wellPlaced : ProjectFile.WellPlaced entries
  isWorded : ∀ given error, ProjectFile.promised? entries = some given →
    Config.ofSection (withStandardSupport given) = .error error → error.isEndless = false
  isTimed : ∀ given config, ProjectFile.promised? entries = some given →
    Config.ofSection (withStandardSupport given) = .ok config → ¬IsTimeless given config

/-- The section of a project file is handled as promised exactly when it can be
managed. -/
theorem keepsPromise_iff (isToml : (Value.table entries).IsToml) :
    KeepsPromise file entries (ProjectFile.sectionIn file entries) ↔ Manageable entries := by
  have brokenIff (given : Section) (found : ProjectFile.promised? entries = some given) :=
    receive_broken_iff (ProjectFile.isToml_of_promised? isToml found)
  constructor
  · rintro ⟨isPromised, notBroken⟩
    have received (given : Section) (found : ProjectFile.promised? entries = some given) :
        ¬∃ breakdown, receive given = .broken breakdown := by
      rintro ⟨breakdown, isBroken⟩
      have isSection := isPromised.trans (ProjectFile.promised_eq_ok_iff.mpr found)
      exact notBroken given breakdown isSection isBroken
    refine ⟨ProjectFile.sectionIn_eq_promised_iff.mp isPromised, ?_, ?_⟩
    · intro given error found refused
      by_contra endless
      rw [Bool.not_eq_false] at endless
      exact received given found ((brokenIff given found).mpr (.inl ⟨error, refused, endless⟩))
    · intro given config found accepted timeless
      exact received given found ((brokenIff given found).mpr (.inr ⟨config, accepted, timeless⟩))
  · rintro ⟨wellPlaced, isWorded, isTimed⟩
    have isPromised : ProjectFile.sectionIn file entries = ProjectFile.promised file entries :=
      ProjectFile.sectionIn_eq_promised_iff.mpr wellPlaced
    refine ⟨isPromised, fun given breakdown isSection isBroken => ?_⟩
    have found := ProjectFile.promised_eq_ok_iff.mp (isPromised.symm.trans isSection)
    rcases (brokenIff given found).mp ⟨breakdown, isBroken⟩ with
      ⟨error, refused, endless⟩ | ⟨config, accepted, timeless⟩
    · rw [isWorded given error found refused] at endless
      cases endless
    · exact isTimed given config found accepted timeless

theorem load_of_document (located : ProjectFile.find tree home "." = .ok (some path))
    (readable : tree.read path = .ok bytes) (decoded : Text.decodeUtf8 bytes = .ok text)
    (isRead : TomlText.read text = .ok entries) :
    ProjectFile.load tree home "." =
      ProjectFile.sectionIn (ProjectFile.placeOf home path) entries := by
  rw [ProjectFile.load, located, Outcome.ok_bind]
  simp only [readable, ProjectFile.sectionOfBytes, decoded, Except.mapError, Outcome.ok_bind,
    isRead]

/-- A configuration error that is found before the arguments are read ends every run with the exit
code of an error. -/
theorem exitCode_of_misplaced
    (loaded : ProjectFile.load tree home "." = .error (.sectionNotTable file)) :
    (run tree home clock arguments).exitCode = errorExit := by
  rw [run, loaded]
  rfl

theorem exitCode_of_configError {error : ConfigError}
    (loaded : ProjectFile.load tree home "." = .ok given)
    (refused : Config.ofSection (withStandardSupport given) = .error error)
    (isWorded : error.isEndless = false) :
    (run tree home clock arguments).exitCode = errorExit := by
  simp [run, loaded, refused, isWorded, Ending.exitCode]

theorem exitCode_check_of_refused {error : EngineError}
    (refused : Engine.ofConfig config .standard = .error error)
    (isOther : ∀ fault, error ≠ .setting fault) (tree : FileTree) (clock : Clock)
    (request : CheckRequest) (notices : List Notice) :
    (check tree clock config request notices).exitCode = errorExit := by
  cases error with
  | setting fault => exact absurd rfl (isOther fault)
  | _ =>
      simp only [check, refused]
      rfl

/-- A refused section ends a check with the exit code of an error. -/
theorem exitCode_of_refused {error : EngineError} {request : CheckRequest}
    (loaded : ProjectFile.load tree home "." = .ok given)
    (asked : Command.ofArguments arguments = .ok (.check request))
    (refused : receive given = .refused error) :
    (run tree home clock arguments).exitCode = errorExit := by
  unfold receive at refused
  cases accepted : Config.ofSection (withStandardSupport given) with
  | error cause =>
      simp only [accepted] at refused
      cases isWorded : cause.isEndless with
      | true => simp [isWorded] at refused
      | false => exact exitCode_of_configError loaded accepted isWorded
  | ok config =>
      simp only [accepted] at refused
      cases built : Engine.ofConfig config .standard with
      | ok engine => simp [built] at refused
      | error cause =>
          have isOther : ∀ fault, cause ≠ .setting fault := by
            rintro fault rfl
            simp [built] at refused
          have ended := exitCode_check_of_refused built isOther tree clock request
            (Config.notices (withStandardSupport given))
          simpa [run, loaded, accepted, asked, carryOut] using ended

/-- Once a section does not break the program, a run that breaks has an engine to check with. -/
theorem usable_of_run_broken {breakdown : Breakdown}
    (loaded : ProjectFile.load tree home "." = .ok given)
    (notBroken : ∀ other, receive given ≠ .broken other)
    (broke : run tree home clock arguments = .broken breakdown) :
    ∃ engine request, receive given = .usable engine ∧
      Command.ofArguments arguments = .ok (.check request) := by
  rw [run, loaded] at broke
  unfold receive at notBroken ⊢
  cases accepted : Config.ofSection (withStandardSupport given) with
  | error error =>
      simp only [accepted] at broke notBroken
      cases isWorded : error.isEndless with
      | true => simp [isWorded] at notBroken
      | false => simp [isWorded] at broke
  | ok config =>
      simp only [accepted] at broke notBroken
      cases asked : Command.ofArguments arguments with
      | error usage => simp [asked] at broke
      | ok command =>
          cases command with
          | check request =>
              cases built : Engine.ofConfig config .standard with
              | ok engine => exact ⟨engine, request, by simp only [built], rfl⟩
              | error error =>
                  cases error with
                  | setting fault => simp [built] at notBroken
                  | _ => simp [asked, carryOut, check, built] at broke
          | _ => simp [asked, carryOut] at broke

/-- For every document, the promise is kept just where the document is manageable. Then a value in
place of a table and a configuration error end every run with the exit code of an error, an engine
that is refused ends a check so, and a run breaks in a check with an engine only. -/
theorem run_of_document (located : ProjectFile.find tree home "." = .ok (some path))
    (readable : tree.read path = .ok bytes) (decoded : Text.decodeUtf8 bytes = .ok text)
    (isRead : TomlText.read text = .ok entries) :
    let loaded := ProjectFile.load tree home "."
    (KeepsPromise (ProjectFile.placeOf home path) entries loaded ↔ Manageable entries) ∧
    (KeepsPromise (ProjectFile.placeOf home path) entries loaded → ∀ clock arguments,
      (ProjectFile.promised? entries = none →
        (run tree home clock arguments).exitCode = errorExit) ∧
      ∀ given, ProjectFile.promised? entries = some given →
        (∀ error, Config.ofSection (withStandardSupport given) = .error error →
          (run tree home clock arguments).exitCode = errorExit) ∧
        (∀ error request, receive given = .refused error →
          Command.ofArguments arguments = .ok (.check request) →
          (run tree home clock arguments).exitCode = errorExit) ∧
        ∀ breakdown, run tree home clock arguments = .broken breakdown →
          ∃ engine request, receive given = .usable engine ∧
            Command.ofArguments arguments = .ok (.check request)) := by
  have isToml := TomlText.read_isToml isRead
  have loadedIs := load_of_document located readable decoded isRead
  dsimp only
  rw [loadedIs]
  refine ⟨keepsPromise_iff isToml, fun keeps clock arguments => ⟨fun misplaced => ?_, ?_⟩⟩
  · have isError := ProjectFile.promised_of_none (ProjectFile.placeOf home path) misplaced
    exact exitCode_of_misplaced (loadedIs.trans (keeps.isPromised.trans isError))
  · intro given found
    have isGiven := keeps.isPromised.trans (ProjectFile.promised_eq_ok_iff.mpr found)
    have loaded := loadedIs.trans isGiven
    refine ⟨fun error refused => ?_, fun error request refused asked => ?_, fun breakdown => ?_⟩
    · have isWorded := ((keepsPromise_iff isToml).mp keeps).isWorded given error found refused
      exact exitCode_of_configError loaded refused isWorded
    · exact exitCode_of_refused loaded asked refused
    · exact usable_of_run_broken loaded fun other => keeps.notBroken given other isGiven

/-- A working directory that holds nothing but a project file. -/
def projectOf (content : String) : FileTree :=
  .directory [(ProjectFile.fileName, .file content.toUTF8.toList)]

/-- The path of the project file there. -/
def projectPath : Path := ⟨"", [ProjectFile.fileName]⟩

theorem find_projectPath (content : String) :
    (projectOf content).find projectPath = .ok (.file content.toUTF8.toList) := by
  have noZero : projectPath.hasZero = false := by decide +kernel
  have isShort : ¬FileTree.pathLimit ≤ projectPath.text.utf8ByteSize := by decide +kernel
  have isShortName : FileTree.isLongName ProjectFile.fileName = false := by decide +kernel
  have notUp : ProjectFile.fileName ≠ ".." := by decide
  have isRelative : projectPath.root = "" := rfl
  rw [FileTree.find, noZero, if_neg (by decide), if_neg isShort, if_pos isRelative]
  simp [projectPath, projectOf, FileTree.follow, isShortName, notUp]

theorem find_projectOf (content home : String) :
    ProjectFile.find (projectOf content) home "." = .ok (some projectPath) := by
  have here : Path.ofText "." = ⟨"", []⟩ := by decide +kernel
  have onlyHere : (ProjectFile.upwards ⟨"", []⟩).map (·.child ProjectFile.fileName) =
      [projectPath] := by decide +kernel
  have noZero : Path.hasZero ⟨"", []⟩ = false := rfl
  rw [ProjectFile.find, here]
  simp only [noZero, ProjectFile.resolve, List.reverse_nil, onlyHere, ProjectFile.firstFile,
    FileTree.probe, find_projectPath]
  rfl

theorem read_projectOf (content : String) :
    (projectOf content).read projectPath = .ok content.toUTF8.toList := by
  rw [FileTree.read, find_projectPath]

/-- A text in place of the section. -/
def textForSection : String := "[tool]\ndesign-guide = \"x\"\n"

theorem run_of_document_text_for_section :
    ∃ entries, TomlText.read textForSection.toList = .ok entries ∧
      ProjectFile.promised? entries = none ∧
      KeepsPromise (ProjectFile.placeOf "/home" projectPath) entries
        (ProjectFile.load (projectOf textForSection) "/home" ".") ∧
      ∀ clock arguments,
        (run (projectOf textForSection) "/home" clock arguments).exitCode = errorExit := by
  have decoded : Text.decodeUtf8 textForSection.toUTF8.toList = .ok textForSection.toList := by
    decide +kernel
  obtain ⟨entries, isRead, isText⟩ := Outcome.exists_of_passes
    (show Outcome.passes (fun entries =>
        (((entries.lookup ProjectFile.toolKey).bind Value.entries?).bind fun tools =>
          (tools.lookup ProjectFile.sectionKey).bind Value.text?) == some "x")
      (TomlText.read textForSection.toList) = true by decide +kernel)
  obtain ⟨tools, underTools, underSection⟩ := Option.bind_eq_some_iff.mp (eq_of_beq isText)
  obtain ⟨held, isHeld, areTools⟩ := Option.bind_eq_some_iff.mp underTools
  obtain ⟨found, isFound, isText⟩ := Option.bind_eq_some_iff.mp underSection
  obtain rfl := Value.text?_eq_some_iff.mp isText
  have isTools : ProjectFile.tableUnder? entries ProjectFile.toolKey = some tools := by
    rw [ProjectFile.tableUnder?, isHeld]
    exact areTools
  have misplaced : ProjectFile.promised? entries = none := by
    rw [ProjectFile.promised?, isTools, Option.bind_some, ProjectFile.tableUnder?_eq_none_iff]
    exact ⟨_, isFound, rfl⟩
  have isManageable : Manageable entries := by
    refine ⟨⟨tools, isTools, fun other isOther _ => ?_⟩, ?_, ?_⟩
    · rw [isFound] at isOther
      cases isOther
      decide
    · intro given error isGiven
      rw [misplaced] at isGiven
      cases isGiven
    · intro given config isGiven
      rw [misplaced] at isGiven
      cases isGiven
  obtain ⟨keepsIff, ends⟩ := run_of_document (find_projectOf textForSection "/home")
    (read_projectOf textForSection) decoded isRead
  have keeps := keepsIff.mpr isManageable
  exact ⟨entries, isRead, misplaced, keeps,
    fun clock arguments => (ends keeps clock arguments).1 misplaced⟩

/-- A text in place of the tables of the tools. -/
def textForTools : String := "tool = \"x\"\n"

/-- A text in place of the tables of the tools is no configuration error: it breaks the program. -/
theorem run_of_text_for_tools :
    ∃ entries, TomlText.read textForTools.toList = .ok entries ∧
      entries.lookup ProjectFile.toolKey = some (.text "x") ∧
      ∀ clock arguments, run (projectOf textForTools) "/home" clock arguments =
        .broken (.project (.toolNotTable (.text "x"))) := by
  have decoded : Text.decodeUtf8 textForTools.toUTF8.toList = .ok textForTools.toList := by
    decide +kernel
  obtain ⟨entries, isRead, isText⟩ := Outcome.exists_of_passes
    (show Outcome.passes (fun entries =>
        (entries.lookup ProjectFile.toolKey).bind Value.text? == some "x")
      (TomlText.read textForTools.toList) = true by decide +kernel)
  obtain ⟨held, isHeld, isText⟩ := Option.bind_eq_some_iff.mp (eq_of_beq isText)
  obtain rfl := Value.text?_eq_some_iff.mp isText
  have loaded := load_of_document (find_projectOf textForTools "/home")
    (read_projectOf textForTools) decoded isRead
  rw [ProjectFile.sectionIn_of_misplaced isHeld rfl, if_pos (by decide)] at loaded
  refine ⟨entries, isRead, isHeld, fun clock arguments => ?_⟩
  rw [run, loaded]
  rfl

end Program
end StyleAudit
