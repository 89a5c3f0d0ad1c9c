import StyleAudit.CommandLine.Program

/-!
# The command line

Reads the working directory into a tree of files, runs the program on it and
prints what it shows. All decisions are the program's.
-/

namespace StyleAudit.Main

/-- The content of a file matters: it may be a dump, or an argument names it. -/
def isWanted (arguments : List String) (name : String) : Bool :=
  dumpPatterns.any (Text.globMatches · name) ||
    arguments.any fun argument => (Path.ofText argument).names.getLast? == some name

def printLine (stream : IO.FS.Stream) (line : String) : IO Unit :=
  stream.putStrLn (Text.released line)

/-- A file or directory with everything below it. -/
partial def readEntry (arguments : List String) (entry : IO.FS.DirEntry) :
    IO (String × FileTree) := do
  let name := Text.hold entry.fileName.toList
  if ← entry.path.isDir then
    let below ← (← entry.path.readDir).toList.mapM (readEntry arguments)
    return (name, .directory below)
  else if isWanted arguments name then
    return (name, .file (← IO.FS.readBinFile entry.path).toList)
  else return (name, .file [])

/-- The first of some directories with a project file, and its content. -/
def readProject : List String → IO (Option (String × List UInt8))
  | [] => return none
  | directory :: above => do
    try
      let bytes ← IO.FS.readBinFile (directory ++ "/" ++ ProjectFile.fileName)
      return some (directory, bytes.toList)
    catch _ => readProject above

def itemLines : ConsoleItem → List String
  | .line markup => [markup]
  | .table table =>
    table.title :: (table.columns :: table.rows).map fun row => String.intercalate "\t" row

/-- Print how the program ended and give its exit code. -/
def showEnding (ending : Ending) : IO UInt32 := do
  let tell := printLine (← IO.getStderr)
  match ending with
  | .broken breakdown =>
    tell breakdown.message
  | .misconfigured fault notices =>
    for notice in notices do
      tell notice.message
    tell fault.report
  | .shown display =>
    for notice in display.notices do
      tell notice.message
    for item in Session.standard.printed display.announcements do
      (itemLines item).forM tell
    for item in display.console do
      (itemLines item).forM (printLine (← IO.getStdout))
    IO.print display.output
  return ending.exitCode.toUInt32

end StyleAudit.Main

/-- Run the program in the working directory. The project file may stand in a
directory above it. -/
def main (arguments : List String) : IO UInt32 := do
  let arguments := arguments.map fun argument => StyleAudit.Text.hold argument.toList
  let directory ← IO.currentDir
  let below ← (← directory.readDir).toList.mapM (StyleAudit.Main.readEntry arguments)
  let tree : StyleAudit.FileTree := .directory below
  let place := StyleAudit.Path.ofText directory.toString
  let above := (StyleAudit.ProjectFile.upwards place).map (·.text)
  let (home, tree) := match ← StyleAudit.Main.readProject above with
    | some (home, bytes) =>
      (home, tree.addFile (.ofText StyleAudit.ProjectFile.fileName) bytes)
    | none => (directory.toString, tree)
  let clock : StyleAudit.Clock := fun _ => .zero false
  StyleAudit.Main.showEnding (StyleAudit.Program.run tree home clock arguments)
