import StyleAudit.Audit.DumpCheck
import StyleAudit.CommandLine.Arguments
import StyleAudit.Guidance.Registry
import StyleAudit.Report.ConsoleReport
import StyleAudit.Report.JsonReport
import StyleAudit.Settings.ProjectFile
import StyleAudit.Settings.Wording

/-!
# The program

`Program.run` reads the configuration, then the arguments, and carries out the
command. What the user gets to see is a `Display`; a configuration that is not
usable ends the program before anything is displayed.
-/

namespace StyleAudit

/-- What a command shows: its announcements, what it prints on the console and
on the standard output, and the notices of the run. -/
structure Display where
  exitCode : Nat
  output : String
  console : List ConsoleItem
  announcements : List Announcement
  notices : List Notice
  deriving Repr

/-- A configuration that is not usable. -/
inductive StartFault
  | project (fault : ProjectFault)
  | config (error : ConfigError)
  deriving Repr

def StartFault.message : StartFault → String
  | project fault => fault.message
  | config error => error.message

/-- A fault that ends the program without a word of its own. -/
inductive Breakdown
  | project (fault : ProjectFault)
  | setting (fault : SettingFault)
  | launch (fault : LaunchFault)
  | task (fault : TaskFault)
  deriving Repr

def Breakdown.message : Breakdown → String
  | project fault => fault.message
  | setting fault => fault.message
  | launch fault => fault.message
  | task fault => fault.message

/-- How the program ends. -/
inductive Ending
  | shown (display : Display)
  | misconfigured (fault : StartFault) (notices : List Notice)
  | broken (breakdown : Breakdown)
  deriving Repr

def StartFault.report (fault : StartFault) : String :=
  s!"design-guide: configuration error: {fault.message}"

namespace Program

def findingsExit : Nat := 1

def errorExit : Nat := 2

def brokenExit : Nat := 1

/-- A display with nothing but an exit code and notices. -/
def blank (exitCode : Nat) (notices : List Notice) : Display :=
  ⟨exitCode, "", [], [], notices⟩

/-! ## Commands -/

def ruleTable (catalog : Catalog) : Table :=
  { title := "Style rules"
    columns := ["Rule", "Severity", "Title"]
    rows := catalog.rules.map fun rule =>
      [rule.id, rule.severity.name, Text.escapeMarkup rule.title] }

/-- The severity of a rule, or that of its registry entry. -/
def severityWord (id : String) (entry : List (String × Value)) : String :=
  match Rule.ofId? id with
  | some rule => rule.severity.name
  | none => ((entry.lookup "severity").getD (.text "")).plainText

def explanation (registry : Registry) (id : String) (entry : List (String × Value)) :
    List String :=
  let name := Text.escapeMarkup (registry.displayName id)
  let advice := Text.escapeMarkup (registry.instructions id)
  [s!"[bold]{name}[/] ({id}, {severityWord id entry})"]
    ++ (Registry.given? entry "short_description").toList.map (fun summary =>
      Text.escapeMarkup summary.plainText)
    ++ (Registry.given? entry "rationale").toList.map (fun reason =>
      "\n[bold]Why[/]\n" ++ Text.escapeMarkup (Text.trim reason.plainText))
    ++ [s!"\n[bold]How to fix[/]\n{advice}"]
    ++ (((entry.lookup "references").bind textItems?).getD []).map fun reference =>
      "  - " ++ Text.escapeMarkup reference

def explain (registry : Registry) (id : String) (notices : List Notice) : Display :=
  match registry.entry? id with
  | none =>
    { blank errorExit notices with announcements := [.error s!"Unknown rule id '{id}'"] }
  | some entry =>
    { blank 0 notices with console := (explanation registry id entry).map .line }

def report (request : CheckRequest) (result : AuditResult) (display : Display) : Display :=
  let shown := match request.format with
    | .json => { display with output := result.jsonText }
    | .terminal => { display with console := ConsoleReport.items .standard result }
  { shown with exitCode := if result.isBlocked request.failOn then findingsExit else 0 }

def check (tree : FileTree) (clock : Clock) (config : Config) (request : CheckRequest)
    (notices : List Notice) : Ending :=
  let welcome : List Announcement := if request.format = .terminal then [.started] else []
  let before := notices ++ Engine.notices config .standard
  match Engine.ofConfig config .standard with
  | .error (.setting fault) => .broken (.setting fault)
  | .error error =>
    .shown { blank errorExit before with announcements := welcome ++ [.error error.message] }
  | .ok engine =>
    match config.workerCount (request.workers.getD 0) with
    | .error fault => .broken (.setting fault)
    | .ok workers =>
      let paths := request.paths.map fun path => (Path.ofText path).text
      match engine.checkDumps tree clock .never workers paths with
      | .error fault => .broken (.launch fault)
      | .ok state =>
        match state.result with
        | .error fault => .broken (.task fault)
        | .ok result =>
          .shown (report request result
            { blank 0 (before ++ tree.missingNotices paths) with
              announcements := welcome ++ state.announcements workers })

def carryOut (tree : FileTree) (clock : Clock) (config : Config) (notices : List Notice) :
    Command → Ending
  | .help => .shown (blank 0 notices)
  | .rules =>
    let table := ruleTable (Catalog.ofConfig config)
    .shown { blank 0 (notices ++ Catalog.notices config) with console := [.table table] }
  | .explain id => .shown (explain .standard id notices)
  | .check request => check tree clock config request notices

/-! ## Start -/

/-- A fault of the project file either concerns the configuration or breaks
the program. -/
def projectEnding : ProjectFault → Ending
  | .notToml file => .misconfigured (.project (.notToml file)) []
  | .sectionNotTable file => .misconfigured (.project (.sectionNotTable file)) []
  | fault => .broken (.project fault)

/-- Run the program in a working directory that stands at `home`. -/
def run (tree : FileTree) (home : String) (clock : Clock) (arguments : List String) : Ending :=
  match ProjectFile.load tree home "." with
  | .error fault => projectEnding fault
  | .ok given =>
    let entries := withStandardSupport given
    let notices := Config.notices entries
    match Config.ofSection entries with
    | .error error =>
      if error.isEndless then .broken (.launch .endlessError)
      else .misconfigured (.config error) notices
    | .ok config =>
      match Command.ofArguments arguments with
      | .error _ => .shown (blank errorExit notices)
      | .ok command => carryOut tree clock config notices command

end Program

def Ending.exitCode : Ending → Nat
  | shown display => display.exitCode
  | misconfigured .. => Program.errorExit
  | broken _ => Program.brokenExit

end StyleAudit
