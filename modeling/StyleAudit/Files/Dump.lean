import StyleAudit.Document.JsonText
import StyleAudit.Files.FileTree

/-!
# Loading dumps

A dump is a JSON document in UTF-8. `FileTree.loadDump` decodes the one at a
path, or says why it cannot. Most faults concern that dump alone; an integer
with too many digits and a path that is none stop all work.
-/

namespace StyleAudit

/-- Why a dump cannot be loaded. -/
inductive DumpFault
  | unreadable (fault : AccessFault)
  | undecodable (error : Text.Utf8Error)
  | notJson (fault : JsonFault) (line : Nat)
  deriving Repr

def DumpFault.message (written : String) : DumpFault → String
  | unreadable fault =>
    s!"cannot read AST dump {written}: {fault.message (Path.ofText written)}"
  | undecodable error => s!"cannot read AST dump {written}: {error.message}"
  | notJson fault line => s!"invalid JSON in {written}: {fault.message} (line {line})"

/-- Why loading stops: through a fault of the dump, or through something that
stops all work. -/
inductive LoadFault
  | confined (fault : DumpFault)
  | number (fault : OverlongInteger)
  | zeroInPath
  deriving Repr

def JsonError.toLoadFault : JsonError → LoadFault
  | fault found line => .confined (.notJson found line)
  | overlong number => .number number

/-- The dump at a path. Line endings are unified before the document is read,
so that each of them ends a line. -/
def FileTree.loadDump (tree : FileTree) (written : String) : Except LoadFault Value := do
  let path := Path.ofText written
  if path.hasZero then throw .zeroInPath
  let bytes ← (tree.read path).mapError fun fault => .confined (.unreadable fault)
  let text ← (Text.decodeUtf8 bytes).mapError fun error => .confined (.undecodable error)
  (JsonText.read (Text.unifyNewlines text)).mapError JsonError.toLoadFault

end StyleAudit
