import StyleAudit.Module.Declaration

/-!
# The scope of a module

`ModuleScope` is everything a rule needs to know about one module: its
functions in declaration order, its imports, the support bases it uses, its
attributes and its call sites. `ModuleScope.ofModule` builds it, leaving out
what belongs to nested modules.
-/

namespace StyleAudit

/-- A call site. `resolved` is the function of the same module it binds to,
`caller` the function it stands in. -/
structure CallRef where
  name : String
  arity : Nat
  module : Option String
  span : Span
  caller : Option FunctionKey
  resolved : Option FunctionKey
  deriving DecidableEq, Repr

def CallRef.qualifiedName (ref : CallRef) : String :=
  match ref.module with
  | none | some "" => ref.name
  | some module => module ++ "." ++ ref.name

/-- The declarations and call sites of one module. -/
structure ModuleScope where
  name : String
  span : Span
  /-- The module carries documentation. -/
  hasDoc : Bool
  /-- The module is internal to its context. -/
  isNested : Bool
  /-- The functions in declaration order. -/
  functions : List FunctionGroup
  imports : List ImportDecl
  uses : List UseDecl
  /-- The first declaration of each module attribute. -/
  attributes : List (String × Span)
  references : List CallRef
  deriving Repr

/-- The function that a call binds to: the one of that very arity, or else the
first that accepts so many arguments. -/
def resolveIn (functions : List FunctionGroup) (key : FunctionKey) : Option FunctionGroup :=
  (functions.find? (·.key == key)).or
    (functions.find? fun group => group.key.name == key.name && group.accepts key.arity)

def isLocalQualifier (moduleName : String) : Option String → Bool
  | none => true
  | some qualifier => qualifier == moduleName || qualifier == "__MODULE__"

namespace ModuleScope

/-- The function that a name and a number of arguments bind to. -/
def resolve? (scope : ModuleScope) (key : FunctionKey) : Option FunctionGroup :=
  resolveIn scope.functions key

/-- A qualifier addresses the module itself. -/
def isLocal (scope : ModuleScope) (qualifier : Option String) : Bool :=
  isLocalQualifier scope.name qualifier

def function? (scope : ModuleScope) (key : FunctionKey) : Option FunctionGroup :=
  scope.functions.find? (·.key == key)

/-- The function that the clause at a path belongs to; only top-level forms are
clauses. -/
def functionForClause? (scope : ModuleScope) (path : NodePath) : Option FunctionGroup :=
  match path with
  | [position] =>
    scope.functions.find? fun group => group.clauses.any (·.position == position)
  | _ => none

def importAt? (scope : ModuleScope) (path : NodePath) : Option ImportDecl :=
  scope.imports.find? (·.path == path)

def callsOf (scope : ModuleScope) (key : FunctionKey) : List FunctionKey :=
  (scope.references.filterMap fun ref =>
    if ref.caller = some key then ref.resolved else none).eraseDups

def callersOf (scope : ModuleScope) (key : FunctionKey) : List FunctionKey :=
  (scope.references.filterMap fun ref =>
    if ref.resolved = some key then ref.caller else none).eraseDups

end ModuleScope

/-! ## Building a scope -/

/-- The value of a documentation attribute documents the module: a text that is
not blank, or anything but false and nil. -/
def isDocumentation (form : Node) : Bool :=
  match form.children with
  | [] => false
  | value :: _ =>
    match value.kind with
    | .literal =>
      match value.attr "value" with
      | .one (.text text) => Text.hasInk text
      | .one literal => !(literal.equals (.bool false) || literal.equals .null)
      | .many _ => true
    | .atom => !(value.attr "value").isTextIn ["false", "nil"]
    | _ => true

/-- The module is documented: the last documentation attribute decides. -/
def hasDocumentation (forms : List Node) : Bool :=
  match (forms.filter fun form =>
      form.kind == .moduleAttribute && form.name == "moduledoc").getLast? with
  | some form => isDocumentation form
  | none => false

def firstAttributes (forms : List Node) : List (String × Span) :=
  (forms.filter (·.kind == .moduleAttribute)).foldl
    (fun found form =>
      if found.any (·.1 == form.name) then found else found ++ [(form.name, form.span)])
    []

/-- The function clauses among the forms of a module, with their positions. -/
def clausesOf (forms : List Node) : List Clause :=
  (forms.zipIdx.filter fun (form, _) => form.kind == .function).map
    fun (form, position) => ⟨position, form⟩

/-- The module that an unqualified call comes from by an import list. -/
def importedFrom? (imports : List ImportDecl) (key : FunctionKey) : Option String :=
  (imports.find? (·.lists key)).map (·.target)

/-- The call site of a call with its number of arguments. -/
def CallRef.ofCall (moduleName : String) (functions : List FunctionGroup)
    (imports : List ImportDecl) (caller : Option FunctionKey) (call : Node) (arity : Nat) :
    CallRef :=
  let qualifier := call.qualifier?
  let key : FunctionKey := ⟨call.name, arity⟩
  let target := if isLocalQualifier moduleName qualifier then resolveIn functions key else none
  { name := call.name
    arity := arity
    module :=
      if target.isNone && qualifier.isNone then importedFrom? imports key else qualifier
    span := call.span
    caller := caller
    resolved := target.map (·.key) }

def formReferences (moduleName : String) (functions : List FunctionGroup)
    (imports : List ImportDecl) (caller : Option FunctionKey) (form : Node) : List CallRef :=
  form.calls.map fun (call, arity) =>
    CallRef.ofCall moduleName functions imports caller call arity

/-- The call sites of a module: those of its functions in declaration order,
then those of its other forms. -/
def moduleReferences (moduleName : String) (functions : List FunctionGroup)
    (imports : List ImportDecl) (forms : List Node) : List CallRef :=
  (functions.flatMap fun group => group.clauses.flatMap fun clause =>
    formReferences moduleName functions imports (some group.key) clause.node)
  ++ (forms.filter fun form => form.kind != .function && form.kind != .module).flatMap
    (formReferences moduleName functions imports none)

/-- Report a fault as one confined to the module. -/
def confine {α : Type} : Except ModuleFault α → Except IndexFault α
  | .ok result => .ok result
  | .error fault => .error (.confined fault)

/-- The scope of a module. Whether the module is internal to its context is
decided by its name. -/
def ModuleScope.ofModule (isNested : String → Bool) (m : Node) :
    Except IndexFault ModuleScope := do
  if m.kind ≠ .module then
    throw (.confined (.notModule m.kind m.span))
  let functions ← confine (groupClauses (clausesOf m.children))
  let directives := directivesAmong [] false 0 m.children
  let imports ←
    (directives.filter (·.node.kind == .importDirective)).mapM ImportDecl.ofDirective
  let uses := (directives.filter (·.node.kind == .useDirective)).map fun directive =>
    ⟨(directive.node.attr "module").plainText, directive.node.span⟩
  return {
    name := m.name
    span := m.span
    hasDoc := hasDocumentation m.children
    isNested := isNested m.name
    functions := functions
    imports := imports
    uses := uses
    attributes := firstAttributes m.children
    references := moduleReferences m.name functions imports m.children }

/-- The default test for modules internal to a context: the dotted name has
more segments than the context depth. -/
def exceedsDepth (depth : Nat) (moduleName : String) : Bool :=
  decide (depth < Text.segmentCount moduleName)

end StyleAudit
