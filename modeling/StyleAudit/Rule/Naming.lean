import StyleAudit.Rule.Basic
import StyleAudit.Expression.Result

/-!
# Names

* `sequential`: numbered variables of one declaration separate the number by
  an underscore.
* `predicate`: functions that return truth values end with the predicate mark,
  and no function begins with the mark reserved for guards.
-/

namespace StyleAudit.Naming

/-- A name without the number at its end and one underscore before it, and
whether that underscore is there. A line break may follow the number but not
come before it; a name without a number has no stem. -/
def stem? (name : String) : Option (String × Bool) :=
  let characters := name.toList
  let core := if characters.getLast? = some '\n' then characters.dropLast else characters
  let backwards := core.reverse
  match backwards.takeWhile Text.isDecimal, backwards.dropWhile Text.isDecimal with
  | [], _ => none
  | _ :: _, before =>
    let (stem, separated) := match before with
      | '_' :: stem => (stem.reverse, true)
      | stem => (stem.reverse, false)
    if stem.isEmpty || stem.contains '\n' then none
    else some (String.ofList stem, separated)

/-- A variable in a series of names: the stem it shares with others, and
whether its number follows the stem without an underscore. -/
structure Member where
  stem : String
  name : String
  span : Span
  glued : Bool
  deriving DecidableEq, Repr

/-- The place of a variable in its series; a name without a number is a stem
of its own. -/
def Member.ofVariable (v : Node) : Member :=
  match stem? v.name with
  | none => ⟨v.name, v.name, v.span, false⟩
  | some (stem, separated) => ⟨stem, v.name, v.span, !separated⟩

/-- The first variable of each name that is not marked as unused. -/
def identifiers (declared : Node) : List Node :=
  (declared.patternVariables.filter fun v => !Text.begins v.name "_").foldl
    (fun found v => if found.any (·.name == v.name) then found else found ++ [v])
    []

/-- The members of the series of a declaration, series by series in the order
of their first members. -/
def seriesOf (members : List Member) : List (List Member) :=
  (members.map (·.stem)).eraseDups.map fun stem => members.filter (·.stem == stem)

/-- The name with an underscore between stem and number. -/
def Member.separatedName (member : Member) : String :=
  member.stem ++ "_" ++ String.ofList (member.name.toList.drop member.stem.length)

/-- The numbered variables of a declaration without an underscore that share
their stem. -/
def numbered (declared : Node) : List Finding :=
  let members := (identifiers declared).map Member.ofVariable
  ((seriesOf members).filter fun series => decide (2 ≤ series.length)).flatMap fun series =>
    (series.filter (·.glued)).map fun member =>
      ⟨member.span, s!"`{member.name}` is one of a numbered series; name it " ++
        s!"`{member.separatedName}`."⟩

/-- The numbered variables of what a function or a match declares. -/
def sequential (n : Node) : List Finding :=
  match n.children with
  | [] => []
  | declared :: _ => numbered declared

/-- All values that a function returns are known to be true or false. -/
def returnsBoolean (group : FunctionGroup) : Bool :=
  let sites := group.bodies.flatMap (·.terminals)
  !sites.isEmpty && sites.all (·.isBooleanValued)

def predicateProblems (settings : RuleSettings) (name : String) (isBoolean : Bool) :
    List String :=
  let reserved :=
    if settings.guardMark ≠ "" ∧ Text.begins name settings.guardMark then
      [s!"the `{settings.guardMark}` prefix is reserved for guards"] else []
  let unmarked :=
    if !Text.ends name settings.predicateMark && isBoolean then
      [s!"it returns a boolean, so end the name with `{settings.predicateMark}`"] else []
  reserved ++ unmarked

def misnamed (group : FunctionGroup) (n : Node) : List String → List Finding
  | [] => []
  | problems =>
    let listed := String.intercalate "; " problems
    [⟨n.span, s!"{group.key.text}: {listed}."⟩]

/-- The problems of a function, reported at its first clause. -/
def predicate (settings : RuleSettings) (scope : ModuleScope) (site : Site) : List Finding :=
  match scope.functionForClause? site.path with
  | none => []
  | some group =>
    if site.path = [group.first.position] then
      misnamed group site.node (predicateProblems settings group.key.name (returnsBoolean group))
    else []

end StyleAudit.Naming
