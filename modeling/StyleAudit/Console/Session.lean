import StyleAudit.Console.Item
import StyleAudit.Text.Blank
import StyleAudit.Text.Case
import StyleAudit.Text.Markup

/-!
# Status lines

While it works a session announces what it does. Every announcement is
printed as a styled line, those for debugging only when the session is
verbose, and every one is written to the log.
-/

namespace StyleAudit

/-- The level of a log entry. -/
inductive LogLevel
  | debug
  | info
  | warning
  | error
  deriving DecidableEq, Repr

def LogLevel.name : LogLevel → String
  | debug => "DEBUG"
  | info => "INFO"
  | warning => "WARNING"
  | error => "ERROR"

/-- Something that a session announces. -/
inductive Announcement
  | started
  | step (message : String)
  | warning (message : String)
  | error (message : String)
  | debug (message : String)
  deriving DecidableEq, Repr

/-- Who announces: a project with its color and its words of welcome. -/
structure Session where
  project : String
  color : String
  welcome : String
  verbose : Bool
  deriving DecidableEq, Repr

namespace Session

def standard : Session :=
  ⟨"DESIGN-GUIDE", "cyan", "functional style rule engine", false⟩

def markup? (session : Session) : Announcement → Option String
  | .started =>
    let welcome := Text.escapeMarkup session.welcome
    some (Text.trimEnd s!"[bold {session.color}]{session.project}[/] {welcome}")
  | .step message => some (s!"[{session.color}]>[/] " ++ Text.escapeMarkup message)
  | .warning message => some ("[yellow]warning:[/] " ++ Text.escapeMarkup message)
  | .error message => some ("[bold red]error:[/] " ++ Text.escapeMarkup message)
  | .debug message =>
    if session.verbose then some ("[dim]" ++ Text.escapeMarkup message ++ "[/]") else none

def logEntry (session : Session) : Announcement → LogLevel × String
  | .started => (.info, s!"{session.project} session started")
  | .step message => (.info, message)
  | .warning message => (.warning, message)
  | .error message => (.error, message)
  | .debug message => (.debug, message)

def printed (session : Session) (announcements : List Announcement) : List ConsoleItem :=
  (announcements.filterMap session.markup?).map .line

/-- The name of the log: that of the project in lower case, without spaces. -/
def logName (session : Session) : String :=
  (Text.lower session.project).map fun c => if c = ' ' then '_' else c

end Session
end StyleAudit
