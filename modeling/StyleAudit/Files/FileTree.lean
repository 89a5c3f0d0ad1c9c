import StyleAudit.Files.Path
import StyleAudit.Text.Utf8

/-!
# A tree of files

`FileTree` holds the files and directories below a working directory. Paths
are followed name by name, and a fault says why nothing can be read at a path.
Most paths where there is nothing are simply missing; one that is too long, as
a whole or in a name, cannot even be asked about, and `FileTree.probe` tells it
from the others.
-/

namespace StyleAudit

/-- A file or a directory. -/
inductive FileTree
  | file (bytes : List UInt8)
  | directory (entries : List (String × FileTree))
  deriving Repr, Inhabited

/-- Why there is nothing to read at a path. -/
inductive AccessFault
  | missing
  | notDirectory
  | isDirectory
  | nameTooLong
  deriving DecidableEq, Repr

def AccessFault.message (fault : AccessFault) (path : Path) : String :=
  let reason := match fault with
    | missing => "[Errno 2] No such file or directory"
    | notDirectory => "[Errno 20] Not a directory"
    | isDirectory => "[Errno 21] Is a directory"
    | nameTooLong => "[Errno 36] File name too long"
  s!"{reason}: {Text.quoted path.text}"

namespace FileTree

/-- The entries of a directory; a file has none. -/
def entries : FileTree → List (String × FileTree)
  | directory entries => entries
  | file _ => []

def empty : FileTree := directory []

/-- Put an entry into a list of entries, in place of one of the same name. -/
def putEntry (entries : List (String × FileTree)) (name : String) (tree : FileTree) :
    List (String × FileTree) :=
  entries.filter (·.1 != name) ++ [(name, tree)]

/-- Change what is at the end of a sequence of names; directories on the way
are made where there are none. -/
def update (change : FileTree → FileTree) : List String → FileTree → FileTree
  | [], tree => change tree
  | name :: rest, tree =>
    let below := (tree.entries.lookup name).getD empty
    directory (putEntry tree.entries name (update change rest below))

def addFile (tree : FileTree) (path : Path) (bytes : List UInt8) : FileTree :=
  tree.update (fun _ => file bytes) path.names

def addDirectory (tree : FileTree) (path : Path) : FileTree :=
  tree.update id path.names

def ofLists (files : List (String × List UInt8)) (directories : List String) : FileTree :=
  let withFiles := files.foldl (fun tree (path, bytes) => tree.addFile (.ofText path) bytes) empty
  directories.foldl (fun tree path => tree.addDirectory (.ofText path)) withFiles

def nameLimit : Nat := 255

/-- The number of bytes that a path stays below. -/
def pathLimit : Nat := 4096

def isLongName (name : String) : Bool :=
  decide (nameLimit < name.utf8ByteSize)

/-- Follow names from an entry; `above` holds the directories above it, the
nearest first. A name that is too long is found to be so in its directory. -/
def follow (above : List FileTree) : List String → FileTree → Except AccessFault FileTree
  | [], here => .ok here
  | _ :: _, file _ => .error .notDirectory
  | name :: rest, directory entries =>
    if isLongName name then .error .nameTooLong
    else if name = ".." then
      match above with
      | [] => .error .missing
      | parent :: further => follow further rest parent
    else
      match entries.lookup name with
      | none => .error .missing
      | some entry => follow (directory entries :: above) rest entry

/-- What is at a path. Only the files below the working directory are known,
and a path with a zero character leads to nothing. -/
def find (tree : FileTree) (path : Path) : Except AccessFault FileTree :=
  if path.hasZero then .error .missing
  else if pathLimit ≤ path.text.utf8ByteSize then .error .nameTooLong
  else if path.root = "" then follow [] path.names tree
  else if path.names.head?.any isLongName then .error .nameTooLong
  else .error .missing

/-- What is at a path, if there is anything; a path that is too long is given
back as a fault. -/
def probe (tree : FileTree) (path : Path) : Except Path (Option FileTree) :=
  match tree.find path with
  | .ok here => .ok (some here)
  | .error .nameTooLong => .error path
  | .error _ => .ok none

def isDirectory : FileTree → Bool
  | directory _ => true
  | file _ => false

def holds (tree : FileTree) (path : Path) : Bool :=
  match tree.find path with
  | .ok _ => true
  | .error _ => false

def hasDirectory (tree : FileTree) (path : Path) : Bool :=
  match tree.find path with
  | .ok (directory _) => true
  | _ => false

def hasFile (tree : FileTree) (path : Path) : Bool :=
  match tree.find path with
  | .ok (file _) => true
  | _ => false

def read (tree : FileTree) (path : Path) : Except AccessFault (List UInt8) :=
  match tree.find path with
  | .ok (file bytes) => .ok bytes
  | .ok (directory _) => .error .isDirectory
  | .error fault => .error fault

def namesIn (tree : FileTree) (path : Path) : List String :=
  match tree.find path with
  | .ok here => here.entries.map (·.1)
  | .error _ => []

mutual

/-- The paths of the directories at and below an entry. -/
def directories (path : Path) : FileTree → List Path
  | file _ => []
  | directory entries => path :: directoriesIn path entries
  termination_by structural tree => tree

def directoriesIn (path : Path) : List (String × FileTree) → List Path
  | [] => []
  | (name, tree) :: rest => directories (path.child name) tree ++ directoriesIn path rest
  termination_by structural entries => entries

end

/-- The paths of the directory at a path and of all directories below it. -/
def directoriesFrom (tree : FileTree) (path : Path) : List Path :=
  match tree.find path with
  | .ok here => here.directories path
  | .error _ => []

end FileTree
end StyleAudit
