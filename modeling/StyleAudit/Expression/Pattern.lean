import StyleAudit.Expression.Equality
import StyleAudit.Text.Affix

/-!
# Patterns

* `Node.reduced` replaces `name = pattern` by `name`, also inside tuples.
* `Node.tag?` is the leading atom of a tagged value.
* `Node.unifies` decides whether a value could match a pattern; a value that
  is only known at run time could match any.
* `Node.sameShape` compares kinds, and lengths of tuples and lists, only.
-/

namespace StyleAudit

/-- The value of such an expression is only known at run time. -/
def Kind.isOpaque : Kind → Bool
  | var | call | pipe | access | matchExpr => true
  | _ => false

namespace Node

/-- The variable on one side of a match, the left one first. -/
def boundSide? : List Node → Option Node
  | left :: right :: _ =>
    if left.kind = .var then some left
    else if right.kind = .var then some right
    else none
  | _ => none

mutual

/-- A match with a variable on one side becomes that variable, and a tuple the
tuple of its reduced items; all else stays as it is. -/
def reduced : Node → Node
  | ⟨.matchExpr, span, attributes, children⟩ =>
    (boundSide? children).getD ⟨.matchExpr, span, attributes, children⟩
  | ⟨.tuple, span, attributes, children⟩ =>
    ⟨.tuple, span, attributes, reducedAll children⟩
  | ⟨kind, span, attributes, children⟩ => ⟨kind, span, attributes, children⟩
  termination_by structural n => n

def reducedAll : List Node → List Node
  | [] => []
  | n :: rest => reduced n :: reducedAll rest
  termination_by structural ns => ns

end

mutual

def isReduced : Node → Bool
  | ⟨.matchExpr, _, _, children⟩ => (boundSide? children).isNone
  | ⟨.tuple, _, _, children⟩ => allReduced children
  | _ => true
  termination_by structural n => n

def allReduced : List Node → Bool
  | [] => true
  | n :: rest => isReduced n && allReduced rest
  termination_by structural ns => ns

end

/-- The pattern is a variable, or reduces to one, and matches everything. -/
def isCatchAll (pattern : Node) : Bool :=
  pattern.reduced.kind == .var

/-- A variable whose name marks it as unused. -/
def isDiscarding (pattern : Node) : Bool :=
  pattern.kind == .var && Text.begins pattern.name "_"

/-- The leading atom of a tagged value: an atom itself, or the first item of a
tuple. -/
def tag? (n : Node) : Option String :=
  let value := n.reduced
  match value.kind with
  | .atom => some (value.attr "value").plainText
  | .tuple =>
    match value.children with
    | first :: _ => if first.kind = .atom then some (first.attr "value").plainText else none
    | [] => none
  | _ => none

mutual

/-- Could the value be matched by the pattern? -/
def unifies : (pattern value : Node) → Bool
  | ⟨kind, span, attributes, children⟩, value =>
    match kind with
    | .var => true
    | .matchExpr => (boundSide? children).isSome || value.kind.isOpaque
    | .atom | .literal =>
      value.kind.isOpaque ||
        value.kind == kind &&
          (value.attr "value").equals (Node.attr ⟨kind, span, attributes, children⟩ "value")
    | .tuple | .list =>
      value.kind.isOpaque || value.kind == kind && unifiesAll children value.children
    | .struct =>
      value.kind.isOpaque ||
        value.kind == .struct && value.name == Node.name ⟨kind, span, attributes, children⟩
    | kind => value.kind.isOpaque || value.kind == kind
  termination_by structural pattern => pattern

/-- Equally many patterns and values that could match in pairs. -/
def unifiesAll : (patterns values : List Node) → Bool
  | [], [] => true
  | pattern :: patterns, value :: values =>
    unifies pattern value && unifiesAll patterns values
  | _, _ => false
  termination_by structural patterns => patterns

end

/-- The kinds agree, and for tuples and lists the lengths; a variable has any
shape. -/
def sameShape (pattern other : Node) : Bool :=
  let left := pattern.reduced
  let right := other.reduced
  left.kind == .var || right.kind == .var ||
    left.kind == right.kind &&
      match left.kind with
      | .tuple | .list => left.children.length == right.children.length
      | _ => true

def patternVariables (pattern : Node) : List Node :=
  pattern.preorder.filter (·.kind == .var)

end Node
end StyleAudit
