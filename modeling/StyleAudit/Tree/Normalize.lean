import StyleAudit.Tree.Node

/-!
# Trees from decoded dumps

A dump writes a node as a table with its kind, its source range, its
attributes and its children. `Node.normalize` turns a dump into a tree or
names the first thing that is wrong with it.

* A node without a range of its own covers that of its parent.
* `Kind.shape` states what the nodes of a kind must hold; `shapeFault?` finds
  the first violation.
* `Node.locate` is the place of a node that cannot be read.
-/

namespace StyleAudit

/-- The way from the root of a tree to a node, by positions among children. -/
abbrev NodePath := List Nat

def NodePath.text (path : NodePath) : String :=
  "$" ++ String.join (path.map fun position => s!".children[{position}]")

/-- The fields of a source range. -/
inductive SpanField
  | line
  | column
  | endLine
  | endColumn
  deriving DecidableEq, Repr

def SpanField.key : SpanField → String
  | .line => "line"
  | .column => "column"
  | .endLine => "end_line"
  | .endColumn => "end_column"

/-- What is wrong with one node of a dump. -/
inductive NodeFault
  | unknownKind (found : Value)
  | badSpanField (field : SpanField)
  | attributesNotTable
  | listWithNonLiteral (name : String)
  | attributeNotLiteral (name : String)
  | childrenNotList
  | notTable
  | tooFewChildren (kind : Kind) (least : Nat)
  | missingAttribute (kind : Kind) (name : String)
  | wrongChild (kind : Kind) (position : Nat) (expected : Kind)
  | strayChild (stray kind : Kind)
  | unknownVisibility
  | noDoBlock
  | afterDoBlock
  | armNotBranch
  deriving Repr

/-- Why a dump is no tree. -/
inductive Malformed
  | rootNotTable
  | unnamedFile
  | node (path : NodePath) (fault : NodeFault) (span : Option Span)
  deriving Repr

def NodeFault.message : NodeFault → String
  | unknownKind found => s!"unknown node kind {found.display}"
  | badSpanField field => s!"span field {field.key} must be a non-negative int"
  | attributesNotTable => "attributes must be a mapping"
  | listWithNonLiteral name =>
    s!"attribute {Text.quoted name} holds a non-literal item"
  | attributeNotLiteral name => s!"attribute {Text.quoted name} is not a literal"
  | childrenNotList => "children must be a list"
  | notTable => "node must be a mapping"
  | tooFewChildren kind least => s!"{kind.name} needs at least {least} children"
  | missingAttribute kind name =>
    s!"{kind.name} is missing attribute {Text.quoted name}"
  | wrongChild kind position expected =>
    s!"{kind.name} child {position} must be {expected.name}"
  | strayChild stray kind => s!"{stray.name} not allowed inside {kind.name}"
  | unknownVisibility => "function visibility must be public or private"
  | noDoBlock => "with needs a do block after its clauses"
  | afterDoBlock => "with accepts only an optional else after do"
  | armNotBranch => "case arms must be branch nodes"

def Malformed.message : Malformed → String
  | rootNotTable => "Raw tree root must be a mapping"
  | unnamedFile => "Raw tree does not name its source file"
  | node path fault _ => s!"{path.text}: {fault.message}"

def Malformed.span? : Malformed → Option Span
  | node _ _ span => span
  | _ => none

/-! ## Shapes -/

/-- What the nodes of a kind must hold: so many children, these attributes,
and children of these kinds at the leading positions. -/
structure Shape where
  leastChildren : Nat := 0
  required : List String := []
  leading : List (Option Kind) := []

def Kind.shape : Kind → Shape
  | module | moduleAttribute | call | struct | var => { required := ["name"] }
  | function =>
    { leastChildren := 2, required := ["name", "visibility"], leading := [some params, some block] }
  | importDirective | aliasDirective | requireDirective | useDirective =>
    { required := ["module"] }
  | pipe => { leastChildren := 2, leading := [none, some call] }
  | withExpr => { leastChildren := 2, leading := [some withClause] }
  | withClause | branch | matchExpr | pair | access | default => { leastChildren := 2 }
  | caseExpr => { leastChildren := 1 }
  | ifExpr => { leastChildren := 2, leading := [none, some block] }
  | atom | literal => { required := ["value"] }
  | binaryOp => { leastChildren := 2, required := ["operator"] }
  | unaryOp => { leastChildren := 1, required := ["operator"] }
  | _ => {}

/-- The only kind that the children of a kind may have, if it is restricted. -/
def Kind.onlyChildren? : Kind → Option Kind
  | sourceFile => some module
  | elseBlock | condExpr | fnExpr => some branch
  | keyword | map | struct => some pair
  | _ => none

/-- A required attribute is neither absent nor null nor empty. -/
def Attributes.has (attributes : Attributes) (name : String) : Bool :=
  match attributes.lookup name with
  | none | some (.one .null) | some (.one (.text "")) => false
  | some _ => true

/-- The first leading position whose child has another kind than expected. -/
def wrongLeading? : (position : Nat) → List (Option Kind) → List Node → Option (Nat × Kind)
  | position, some expected :: leading, child :: children =>
    if child.kind = expected then wrongLeading? (position + 1) leading children
    else some (position, expected)
  | position, none :: leading, _ :: children => wrongLeading? (position + 1) leading children
  | _, _, _ => none

/-- What is wrong after the clauses of a `with`: as many children as there are
clauses are passed over, then one block and at most one `else` may follow. -/
def withFault? (children : List Node) : Option NodeFault :=
  let clauses := children.countP (·.kind == .withClause)
  match children.drop clauses with
  | [] => some .noDoBlock
  | first :: rest =>
    if first.kind ≠ .block then some .noDoBlock
    else match rest with
      | [] => none
      | [last] => if last.kind = .elseBlock then none else some .afterDoBlock
      | _ => some .afterDoBlock

def shapeFault? (kind : Kind) (attributes : Attributes) (children : List Node) :
    Option NodeFault :=
  let shape := kind.shape
  if children.length < shape.leastChildren then
    some (.tooFewChildren kind shape.leastChildren)
  else match shape.required.find? fun name => !attributes.has name with
  | some name => some (.missingAttribute kind name)
  | none =>
  match wrongLeading? 0 shape.leading children with
  | some (position, expected) => some (.wrongChild kind position expected)
  | none =>
  match kind.onlyChildren?.bind fun only => children.find? (·.kind != only) with
  | some stray => some (.strayChild stray.kind kind)
  | none =>
  match kind with
  | .function =>
    if ((attributes.lookup "visibility").any (·.isTextIn ["public", "private"])) then none
    else some .unknownVisibility
  | .withExpr => withFault? children
  | .caseExpr =>
    if (children.drop 1).all (·.kind == .branch) then none else some .armNotBranch
  | _ => none

/-! ## The parts of a node -/

def readKind (entries : List (String × Value)) : Except NodeFault Kind :=
  let found := (entries.lookup "kind").getD .null
  match found.text?.bind Kind.ofName? with
  | some kind => .ok kind
  | none => .error (.unknownKind found)

/-- One field of a source range; a null or absent one takes the given value. -/
def readSpanField (source : List (String × Value)) (field : SpanField) (absent : Nat) :
    Except NodeFault Nat :=
  match source.lookup field.key with
  | none | some .null => .ok absent
  | some (.int value) => if value < 0 then .error (.badSpanField field) else .ok value.toNat
  | some _ => .error (.badSpanField field)

/-- The table that holds the source range: the value under `span`, or the node
itself when it has no such entry. Without a `line` there is none. -/
def spanSource? (entries : List (String × Value)) : Option (List (String × Value)) :=
  match ((entries.lookup "span").getD (.table entries)).entries? with
  | some source => if (source.lookup "line").isSome then some source else none
  | none => none

/-- The coordinates of a node, by default those of its parent. -/
def readCoordinates (entries : List (String × Value)) (parent : Coordinates) :
    Except NodeFault Coordinates :=
  match spanSource? entries with
  | none => .ok parent
  | some source => do
    let line ← readSpanField source .line 1
    let column ← readSpanField source .column 1
    let endLine ← readSpanField source .endLine line
    let endColumn ← readSpanField source .endColumn column
    return ⟨line, column, endLine, endColumn⟩

/-- One attribute: a literal or a list of literals. -/
def readAttribute (name : String) : Value → Except NodeFault Attribute
  | .list items =>
    match items.mapM Literal.ofValue? with
    | some values => .ok (.many values)
    | none => .error (.listWithNonLiteral name)
  | value =>
    match Literal.ofValue? value with
    | some literal => .ok (.one literal)
    | none => .error (.attributeNotLiteral name)

/-- The attributes of a node; a value that is not given counts as none. -/
def readAttributes (entries : List (String × Value)) : Except NodeFault Attributes :=
  let found := (entries.lookup "attributes").getD .null
  if !found.isGiven then .ok []
  else match found with
    | .table attributes => attributes.mapM fun (name, value) => do
      return (name, ← readAttribute name value)
    | _ => .error .attributesNotTable

def NodeFault.at (path : NodePath) (span : Option Span) {α : Type} :
    Except NodeFault α → Except Malformed α
  | .ok result => .ok result
  | .error fault => .error (.node path fault span)

/-! ## Whole trees -/

mutual

/-- The tree of a dumped node below a parent with the given coordinates. -/
def normalizeNode (file : String) (parent : Coordinates) (path : NodePath) :
    Value → Except Malformed Node
  | .table entries => do
    let kind ← NodeFault.at path none (readKind entries)
    let coordinates ← NodeFault.at path none (readCoordinates entries parent)
    let span : Span := ⟨file, coordinates⟩
    let attributes ← NodeFault.at path none (readAttributes entries)
    let children ← normalizeChildren file coordinates path entries
    match shapeFault? kind attributes children with
    | some fault => .error (.node path fault (some span))
    | none => .ok ⟨kind, span, attributes, children⟩
  | _ => .error (.node path .notTable (some ⟨file, parent⟩))
  termination_by structural raw => raw

/-- The children of a dumped node, found among its entries. -/
def normalizeChildren (file : String) (coordinates : Coordinates) (path : NodePath) :
    List (String × Value) → Except Malformed (List Node)
  | [] => .ok []
  | (key, value) :: rest =>
    if key = "children" then
      match value with
      | .null => .ok []
      | .list items => normalizeItems file coordinates path 0 items
      | _ => .error (.node path .childrenNotList (some ⟨file, coordinates⟩))
    else normalizeChildren file coordinates path rest
  termination_by structural entries => entries

/-- The trees of dumped siblings, the first at the given position. -/
def normalizeItems (file : String) (parent : Coordinates) (path : NodePath) (position : Nat) :
    List Value → Except Malformed (List Node)
  | [] => .ok []
  | item :: rest => do
    let child ← normalizeNode file parent (path ++ [position]) item
    let children ← normalizeItems file parent path (position + 1) rest
    return child :: children
  termination_by structural items => items

end

def namedFile? (raw : Value) : Option String :=
  match ((raw.find? "attributes").bind (·.find? "file")).bind Value.text? with
  | some file => if file = "" then none else some file
  | none => none

/-- The tree of a dump. The file is the one given or the one the dump names. -/
def Node.normalize (raw : Value) (file : Option String) : Except Malformed Node :=
  match raw with
  | .table _ =>
    match file.or (namedFile? raw) with
    | some file => normalizeNode file .origin [] raw
    | none => .error .unnamedFile
  | _ => .error .rootNotTable

/-- The place of a dumped node that may not be readable. -/
def Node.locate (raw : Value) (file : String) : Span :=
  match raw with
  | .table entries =>
    match readCoordinates entries .origin with
    | .ok coordinates => ⟨file, coordinates⟩
    | .error _ => ⟨file, .origin⟩
  | _ => ⟨file, .origin⟩

end StyleAudit
