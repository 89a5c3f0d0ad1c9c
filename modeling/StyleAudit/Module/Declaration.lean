import StyleAudit.Expression.Call
import StyleAudit.Number.Overlong
import StyleAudit.Tree.Normalize
import StyleAudit.Text.Blank
import StyleAudit.Text.Digit

/-!
# Declarations of a module

The forms of a module declare functions, imports, support bases and
attributes. `FunctionGroup` joins the clauses of one function, `ImportDecl` is
an import with its restriction, and `IndexFault` says why a module cannot be
indexed.
-/

namespace StyleAudit

/-- A function is known by its name and its number of parameters. -/
structure FunctionKey where
  name : String
  arity : Nat
  deriving DecidableEq, Repr, Inhabited

def FunctionKey.text (key : FunctionKey) : String :=
  s!"{key.name}/{key.arity}"

/-- Who may call a function: everybody, or its own module only. -/
inductive Visibility
  | exported
  | hidden
  deriving DecidableEq, Repr

def Visibility.name : Visibility → String
  | exported => "public"
  | hidden => "private"

/-- Why the index of a module cannot be built. -/
inductive ModuleFault
  | notModule (found : Kind) (span : Span)
  | mixedVisibility (key : FunctionKey) (span : Span)
  | badImportEntry (entry : Literal) (span : Span)
  deriving DecidableEq, Repr

def ModuleFault.message : ModuleFault → String
  | notModule found _ => s!"Expected a module node, got {found.name}"
  | mixedVisibility key _ => s!"{key.text} is declared both public and private"
  | badImportEntry entry _ => s!"import only entry {entry.display} is not name/arity"

def ModuleFault.span : ModuleFault → Span
  | notModule _ span | mixedVisibility _ span | badImportEntry _ span => span

/-- The arity of an import entry consists of digits that are no number: one of
them is not a decimal digit, or there are too many. -/
structure UnreadableArity where
  digits : String
  deriving DecidableEq, Repr

/-- The wording of the fault. The decimal digits at the beginning are counted
first; digits that are quoted are cut after two hundred characters. -/
def UnreadableArity.message (fault : UnreadableArity) : String :=
  let leading := fault.digits.toList.takeWhile Text.isDecimal
  match OverlongInteger.ofDigitCount? leading.length with
  | some number => number.message
  | none =>
    "invalid literal for int() with base 10: " ++
      String.ofList ((Text.quoted fault.digits).toList.take 200)

/-- A module cannot be indexed: through a fault of the module itself, or
through an arity that stops the whole run. -/
inductive IndexFault
  | confined (fault : ModuleFault)
  | arity (fault : UnreadableArity)
  deriving DecidableEq, Repr

/-! ## Functions -/

/-- A clause of a function: a top-level form and its position among the forms
of the module. -/
structure Clause where
  position : Nat
  node : Node
  deriving Repr

namespace Clause

def params (clause : Clause) : List Node :=
  match clause.node.children with
  | params :: _ => params.children
  | [] => []

def body? (clause : Clause) : Option Node :=
  match clause.node.children with
  | _ :: body :: _ => some body
  | _ => none

def key (clause : Clause) : FunctionKey :=
  ⟨clause.node.name, clause.params.length⟩

/-- The least number of arguments: parameters with a default may be left out. -/
def minArity (clause : Clause) : Nat :=
  clause.params.length - clause.params.countP (·.kind == .default)

def visibility (clause : Clause) : Visibility :=
  if (clause.node.attr "visibility").isText "private" then .hidden else .exported

end Clause

/-- The clauses of one function, in source order. -/
structure FunctionGroup where
  key : FunctionKey
  minArity : Nat
  visibility : Visibility
  /-- The place of the function among those of its module. -/
  position : Nat
  first : Clause
  others : List Clause
  deriving Repr

namespace FunctionGroup

def clauses (group : FunctionGroup) : List Clause :=
  group.first :: group.others

def bodies (group : FunctionGroup) : List Node :=
  group.clauses.filterMap Clause.body?

def isPrivate (group : FunctionGroup) : Bool :=
  group.visibility == .hidden

/-- A call with so many arguments binds to the function. -/
def accepts (group : FunctionGroup) (arity : Nat) : Bool :=
  decide (group.minArity ≤ arity ∧ arity ≤ group.key.arity)

def ofClause (position : Nat) (clause : Clause) : FunctionGroup :=
  { key := clause.key
    minArity := clause.minArity
    visibility := clause.visibility
    position := position
    first := clause
    others := [] }

def addClause (group : FunctionGroup) (clause : Clause) : FunctionGroup :=
  { group with
    minArity := min group.minArity clause.minArity
    others := group.others ++ [clause] }

end FunctionGroup

/-- Add a clause to the functions declared so far: to its own function, which
must agree in visibility, or as a new function at the end. -/
def insertClause (groups : List FunctionGroup) (clause : Clause) :
    Except ModuleFault (List FunctionGroup) :=
  match groups.find? (·.key == clause.key) with
  | none => .ok (groups ++ [FunctionGroup.ofClause groups.length clause])
  | some group =>
    if group.visibility = clause.visibility then
      .ok (groups.map fun g => if g.key = clause.key then g.addClause clause else g)
    else .error (.mixedVisibility clause.key clause.node.span)

def groupClauses (clauses : List Clause) : Except ModuleFault (List FunctionGroup) :=
  clauses.foldlM insertClause []

/-! ## Imports -/

/-- An `import`: either of all names, or of those of one sort, or of the
functions listed. -/
structure ImportDecl where
  target : String
  /-- The import stands inside a function. -/
  inFunction : Bool
  /-- The functions listed, if there is a list; none are when a sort of names
  is chosen instead. -/
  restriction : Option (List FunctionKey)
  /-- The sort of names chosen. -/
  selector : Option String
  span : Span
  path : NodePath
  deriving Repr

namespace ImportDecl

def isRestricted (decl : ImportDecl) : Bool :=
  decl.restriction.any (!·.isEmpty) || decl.selector.isSome

def lists (decl : ImportDecl) (key : FunctionKey) : Bool :=
  decl.restriction.any (·.contains key)

/-- Names that are not listed may come from the import. -/
def importsUnknownNames (decl : ImportDecl) : Bool :=
  decl.restriction.isNone || decl.selector.isSome

end ImportDecl

/-- The sort of names that an import chooses: functions or macros. -/
def importSelector? (only : Attribute) : Option String :=
  match only.text? with
  | some word =>
    let sort := String.ofList (word.toList.dropWhile (· == ':'))
    if ["functions", "macros"].contains sort then some sort else none
  | none => none

/-- An entry of an import list read as name and arity. -/
def importEntry (entry : Literal) (span : Span) : Except IndexFault FunctionKey :=
  let (name, digits) := Text.splitLast '/' entry.plainText.toList
  if name.isEmpty || digits.isEmpty || !digits.all Text.isDigit then
    .error (.confined (.badImportEntry entry span))
  else match Text.readDecimals? digits with
    | some arity =>
      if integerDigitLimit < digits.length then .error (.arity ⟨String.ofList digits⟩)
      else .ok ⟨String.ofList name, arity⟩
    | none => .error (.arity ⟨String.ofList digits⟩)

def importRestriction (only : Attribute) (span : Span) :
    Except IndexFault (Option (List FunctionKey)) :=
  match only with
  | .one .null => .ok none
  | .one entry => (importEntry entry span).map fun key => some [key]
  | .many entries => (entries.mapM (importEntry · span)).map fun keys => some keys.eraseDups

/-- An import or the use of a support base, where it stands, and whether it is
inside a function. -/
structure Directive where
  path : NodePath
  inFunction : Bool
  node : Node
  deriving Repr

mutual

/-- The directives at and below a node, those of nested modules left out. -/
def directivesBelow (path : NodePath) (inFunction : Bool) : Node → List Directive
  | ⟨kind, span, attributes, children⟩ =>
    if kind = .module then []
    else
      (if kind = .importDirective ∨ kind = .useDirective then
        [⟨path, inFunction, ⟨kind, span, attributes, children⟩⟩] else [])
      ++ directivesAmong path (inFunction || kind == .function) 0 children
  termination_by structural n => n

/-- The directives among siblings, the first at the given position. -/
def directivesAmong (path : NodePath) (inFunction : Bool) (position : Nat) :
    List Node → List Directive
  | [] => []
  | n :: rest =>
    directivesBelow (path ++ [position]) inFunction n
      ++ directivesAmong path inFunction (position + 1) rest
  termination_by structural ns => ns

end

def ImportDecl.ofDirective (directive : Directive) : Except IndexFault ImportDecl := do
  let only := directive.node.attr "only"
  let selector := importSelector? only
  let restriction ←
    if selector.isSome then .ok (some []) else importRestriction only directive.node.span
  return {
    target := (directive.node.attr "module").plainText
    inFunction := directive.inFunction
    restriction := restriction
    selector := selector
    span := directive.node.span
    path := directive.path }

/-- The use of a support base. -/
structure UseDecl where
  target : String
  span : Span
  deriving Repr

end StyleAudit
