import StyleAudit.Files.FileTree
import StyleAudit.Settings.Notice
import StyleAudit.Text.Affix
import StyleAudit.Text.Order

/-!
# Searching for files

`FileTree.search` lists the files below a path that match a pattern, at any
depth. `FileTree.discover` lists the dumps that some paths stand for: a path
of a directory stands for the dumps below it, any other for itself. Both give
up at the first path that is too long and at the first pattern they cannot
use.
-/

namespace StyleAudit

/-- Why a search is given up. -/
inductive SearchFault
  | pathTooLong (path : Path)
  /-- A component of a pattern holds two stars and more. -/
  | badPattern
  | emptyPattern
  deriving DecidableEq, Repr

def SearchFault.message : SearchFault → String
  | pathTooLong path => AccessFault.nameTooLong.message path
  | badPattern => "Invalid pattern: '**' can only be an entire path component"
  | emptyPattern => "empty pattern"

/-- A component of a search pattern. -/
inductive SearchStep
  /-- Any number of directories. -/
  | anyDepth
  | matching (pattern : String)
  | named (name : String)
  deriving DecidableEq, Repr

namespace SearchStep

def hasDoubleStar : List Char → Bool
  | '*' :: '*' :: _ => true
  | _ :: rest => hasDoubleStar rest
  | [] => false

/-- The step that a component of a pattern stands for. Two stars next to each
other are a component of their own. -/
def ofComponent (component : String) : Except SearchFault SearchStep :=
  if component = "**" then .ok .anyDepth
  else if hasDoubleStar component.toList then .error .badPattern
  else if component.toList.any fun c => c == '*' || c == '?' || c == '[' then
    .ok (.matching component)
  else .ok (.named component)

/-- The steps to the files that match a pattern at any depth. -/
def ofPattern (pattern : String) : Except SearchFault (List SearchStep) := do
  return .anyDepth :: (← (Path.ofText pattern).names.mapM ofComponent)

end SearchStep

def dumpPatterns : List String := ["*.ast.json"]

namespace FileTree

/-- The paths reached by steps from a path. Whatever is not the last step
leads to a directory. -/
def select (tree : FileTree) : List SearchStep → Path → Except SearchFault (List Path)
  | [], path => .ok [path]
  | .anyDepth :: rest, path => do
    return (← (tree.directoriesFrom path).mapM (tree.select rest)).flatten
  | .matching pattern :: rest, path => do
    let found := (tree.namesIn path).filter fun name =>
      Text.globMatches pattern name && (rest.isEmpty || tree.hasDirectory (path.child name))
    return (← found.mapM fun name => tree.select rest (path.child name)).flatten
  | .named name :: rest, path => do
    let next := path.child name
    let here? ← (tree.probe next).mapError .pathTooLong
    if here?.any fun here => rest.isEmpty || here.isDirectory then tree.select rest next
    else return []

/-- The files below a directory that match a pattern; a pattern that ends with
a slash asks for directories. -/
def filesMatching (tree : FileTree) (path : Path) (pattern : String) :
    Except SearchFault (List Path) := do
  let found ← tree.select (← SearchStep.ofPattern pattern) path
  return if Text.ends pattern "/" then [] else found.filter tree.hasFile

/-- The path matches one of some patterns. They are tried in order, and an
empty one cannot be. -/
def matchesOne (path : Path) : List String → Except SearchFault Bool
  | [] => .ok false
  | pattern :: rest =>
    if (Path.ofText pattern).isBlank then .error .emptyPattern
    else if path.isMatchedBy (.ofText pattern) then .ok true
    else matchesOne path rest

/-- The files that match one of some patterns: those below a directory, or the
path itself if it is none. -/
def search (tree : FileTree) (patterns : List String) (written : String) :
    Except SearchFault (List String) := do
  let path := Path.ofText written
  let here? ← (tree.probe path).mapError .pathTooLong
  if here?.any isDirectory then
    let found ← patterns.mapM (tree.filesMatching path)
    return Text.sortedDistinct (found.flatten.map Path.text)
  else return if ← matchesOne path patterns then [path.text] else []

def missingNotices (tree : FileTree) (paths : List String) : List Notice :=
  (paths.filter fun path => !tree.holds (.ofText path)).map .missingPath

def dumpsAt (tree : FileTree) (patterns : List String) (path : String) :
    Except SearchFault (List String) := do
  match ← (tree.probe (.ofText path)).mapError .pathTooLong with
  | none => return []
  | some (file _) => return [path]
  | some (directory _) => tree.search patterns path

def discover (tree : FileTree) (patterns : List String) (paths : List String) :
    Except SearchFault (List String) := do
  return Text.sortedDistinct (← paths.mapM (tree.dumpsAt patterns)).flatten

end FileTree
end StyleAudit
