import StyleAudit.Document.TomlText
import StyleAudit.Files.FileTree
import StyleAudit.Settings.Config

/-!
# The project file

Settings stand in the section `tool.design-guide` of the nearest project file:
that of the directory where a search starts, or of one above it.
-/

namespace StyleAudit

/-- Why a project file gives no section. -/
inductive ProjectFault
  | pathTooLong (file : String)
  | zeroInPath
  | undecodable (error : Text.Utf8Error)
  | notToml (file : String)
  | number (fault : OverlongInteger)
  | toolNotTable (found : Value)
  | sectionNotTable (file : String)
  deriving Repr

namespace ProjectFile

def fileName : String := "pyproject.toml"

def toolKey : String := "tool"

def sectionKey : String := "design-guide"

end ProjectFile

def ProjectFault.message : ProjectFault → String
  | pathTooLong file => AccessFault.nameTooLong.message (.ofText file)
  | zeroInPath => "embedded null byte"
  | undecodable error => error.message
  | notToml file => s!"{file}: not a TOML document"
  | number fault => fault.message
  | toolNotTable found => s!"'{found.typeWord}' object has no attribute 'get'"
  | sectionNotTable file =>
    s!"{file}: [{ProjectFile.toolKey}.{ProjectFile.sectionKey}] must be a table"

namespace ProjectFile

/-- The names that lead to a directory, without double points. There is
nothing above a root; a relative path that leaves the working directory leads
to no directory that is known. -/
def resolve (root : String) (done : List String) : List String → Option Path
  | [] => some ⟨root, done.reverse⟩
  | ".." :: rest =>
    match done with
    | [] => if root = "" then none else resolve root [] rest
    | _ :: above => resolve root above rest
  | name :: rest => resolve root (name :: done) rest

/-- A directory and all those above it, the nearest first. -/
def upwards (directory : Path) : List Path :=
  (List.range (directory.names.length + 1)).reverse.map fun size =>
    { directory with names := directory.names.take size }

/-- The place of a path, for messages, when the working directory stands at
`home`. -/
def placeOf (home : String) (path : Path) : String :=
  if path.root = "" then s!"{home}/{path.text}" else path.text

/-- The first of some paths with a file. One that is too long ends the
search. -/
def firstFile (tree : FileTree) : List Path → Except Path (Option Path)
  | [] => .ok none
  | path :: rest => do
    match ← tree.probe path with
    | some (.file _) => return some path
    | _ => firstFile tree rest

/-- The nearest project file. `home` is the place of the working directory, for
messages. -/
def find (tree : FileTree) (home start : String) : Except ProjectFault (Option Path) :=
  let path := Path.ofText start
  if path.hasZero then .error .zeroInPath
  else match resolve path.root [] path.names with
    | none => .ok none
    | some directory =>
      (firstFile tree ((upwards directory).map (·.child fileName))).mapError
        fun path => .pathTooLong (placeOf home path)

/-- The table of an optional entry: one that is not there, or holds nothing,
is an empty table. -/
def givenTable (entries : Section) (key : String) : Except Value Section :=
  match (entries.lookup key).filter Value.isGiven with
  | none => .ok []
  | some (.table found) => .ok found
  | some found => .error found

def sectionIn (file : String) (entries : Section) : Except ProjectFault Section := do
  let tools ← (givenTable entries toolKey).mapError .toolNotTable
  (givenTable tools sectionKey).mapError fun _ => .sectionNotTable file

def sectionOfBytes (file : String) (bytes : List UInt8) : Except ProjectFault Section := do
  let text ← (Text.decodeUtf8 bytes).mapError .undecodable
  match TomlText.read text with
  | .error .malformed => .error (.notToml file)
  | .error (.overlong number) => .error (.number number)
  | .ok entries => sectionIn file entries

/-- The section of the nearest project file, empty if there is none. -/
def load (tree : FileTree) (home start : String) : Except ProjectFault Section := do
  match ← find tree home start with
  | none => return []
  | some path =>
    match tree.read path with
    | .error _ => return []
    | .ok bytes => sectionOfBytes (placeOf home path) bytes

end ProjectFile
end StyleAudit
