import StyleAudit.Rule.Basic
import StyleAudit.Expression.Equality

/-!
# Manual nested updates

Reading a nested value, changing it and writing it back is what `put_in` and
`update_in` do. The change may stand inside the write, or be bound to a
variable that a later expression writes back.
-/

namespace StyleAudit.NestedUpdate

def containerModules : List String := ["Map", "Keyword"]

def updateFunctions : List String :=
  ["put", "put_new", "update", "update!", "delete", "merge", "replace!"]

def pathReaders : List String := ["Map.get", "Map.fetch!", "Keyword.get", "Keyword.fetch!"]

/-- The base and the key of a read. -/
def readSource? (source : Node) : Option (Node × Node) :=
  match source.children with
  | base :: key :: _ =>
    if source.kind = .access ∨ source.kind = .call ∧ pathReaders.contains source.qualifiedName
    then some (base, key) else none
  | _ => none

/-- The base and the key whose value an expression changes. -/
def readPath? (value : Node) : Option (Node × Node) :=
  match value.children with
  | source :: _ =>
    if value.kind = .call ∧ (value.attr "module").isTextIn containerModules
        ∧ updateFunctions.contains value.name
    then readSource? source else none
  | [] => none

/-- What an expression writes to a key of a base. -/
def writtenTo? (n base key : Node) : Option Node :=
  match n.children with
  | [base', key', written] =>
    if n.kind = .call ∧ (n.attr "module").isTextIn containerModules ∧ n.name = "put"
        ∧ base'.structurallyEqual base ∧ key'.structurallyEqual key
    then some written else none
  | _ => none

/-- The value of an expression: the right side of a match. -/
def valueOf (expression : Node) : Node :=
  match expression.kind, expression.children with
  | .matchExpr, _ :: value :: _ => value
  | _, _ => expression

/-- A write of a value read from the same place. -/
def isInline (value : Node) : Bool :=
  match value.kind, value.children with
  | .call, [_, _, inner] =>
    match readPath? inner with
    | some (base, key) => (writtenTo? value base key).isSome
    | none => false
  | _, _ => false

/-- The expression writes a variable back to a key of a base. -/
def writesBack (base key : Node) (temporary : String) (expression : Node) : Bool :=
  (writtenTo? (valueOf expression) base key).any fun written =>
    written.kind == .var && written.name == temporary

/-- The expression binds a changed value that a later one writes back. -/
def isTwoStep (expression : Node) (later : List Node) : Bool :=
  match expression.kind, expression.children with
  | .matchExpr, bound :: value :: _ =>
    bound.kind == .var &&
      match readPath? value with
      | some (base, key) => later.any (writesBack base key bound.name)
      | none => false
  | _, _ => false

def updates : List Node → List Node
  | [] => []
  | expression :: later =>
    if isInline (valueOf expression) || isTwoStep expression later then
      expression :: updates later
    else updates later

def byHand (expression : Node) : Finding :=
  ⟨expression.span, "nested value is read, changed and written back by hand; " ++
    "use put_in/update_in with an access path."⟩

/-- The manual updates of a block. -/
def check (n : Node) : List Finding :=
  (updates n.children).map byHand

end StyleAudit.NestedUpdate
