import StyleAudit.Text.Glob

/-!
# Paths

A path is a sequence of names below a root. Reading one drops empty names and
single points but keeps double points, which only the files themselves can
resolve.
-/

namespace StyleAudit

/-- A path; the root of a relative one is empty. -/
structure Path where
  root : String
  names : List String
  deriving DecidableEq, Repr

namespace Path

/-- The root of a written path. Exactly two leading slashes are a root of their
own, any other number is the same as one. -/
def rootOf (written : List Char) : String :=
  match written with
  | '/' :: '/' :: '/' :: _ => "/"
  | '/' :: '/' :: _ => "//"
  | '/' :: _ => "/"
  | _ => ""

def ofText (written : String) : Path :=
  { root := rootOf written.toList
    names := ((written.toList.splitOn '/').map String.ofList).filter fun name =>
      name != "" && name != "." }

/-- The path as it is written; a path without names is a point. -/
def text (path : Path) : String :=
  let written := path.root ++ String.intercalate "/" path.names
  if written = "" then "." else written

def hasZero (path : Path) : Bool :=
  path.names.any (·.toList.contains '\x00')

def child (path : Path) (name : String) : Path :=
  { path with names := path.names ++ [name] }

/-- The root, if there is one, and the names. -/
def components (path : Path) : List String :=
  if path.root = "" then path.names else path.root :: path.names

/-- There is nothing in the path but, at most, points. -/
def isBlank (path : Path) : Bool :=
  path.components.isEmpty

/-- The last components of the path match those of a pattern one by one; a
pattern with a root has to match all of them. -/
def isMatchedBy (path pattern : Path) : Bool :=
  let given := path.components
  if pattern.root = "" then
    decide (pattern.names ≠ [] ∧ pattern.names.length ≤ given.length) &&
      (given.reverse.zip pattern.names.reverse).all fun (name, part) => Text.globMatches part name
  else
    path.root == pattern.root && path.names.length == pattern.names.length &&
      (path.names.zip pattern.names).all fun (name, part) => Text.globMatches part name

end Path
end StyleAudit
