import StyleAudit.Tree.Kind
import StyleAudit.Tree.Attribute

/-!
# Syntax trees

`Node` is a syntax tree whose nodes carry a kind, the source range they cover,
attributes and children.

* `Node.preorder` lists a tree, parents before children; `Node.outline` does
  not enter subtrees of given kinds.
* `Node.mapSpans` changes every source range of a tree.
-/

namespace StyleAudit

/-- Where a range starts and ends within a file. -/
structure Coordinates where
  startLine : Nat
  startColumn : Nat
  endLine : Nat
  endColumn : Nat
  deriving DecidableEq, Repr, Inhabited

/-- The first position of a file, where things without a place are reported. -/
def Coordinates.origin : Coordinates := ⟨1, 1, 1, 1⟩

/-- A range of a source file. -/
structure Span where
  file : String
  coordinates : Coordinates
  deriving DecidableEq, Repr, Inhabited

/-- File, line and column of the start. -/
def Span.text (span : Span) : String :=
  s!"{span.file}:{span.coordinates.startLine}:{span.coordinates.startColumn}"

/-- A syntax tree. -/
structure Node where
  kind : Kind
  span : Span
  attributes : Attributes
  children : List Node
  deriving Repr, Inhabited

namespace Node

/-- An attribute by name; an absent one is null. -/
def attr (n : Node) (name : String) : Attribute :=
  (n.attributes.lookup name).getD (.one .null)

/-- The name of a node, empty unless its `name` attribute is a text. -/
def name (n : Node) : String :=
  (n.attr "name").text?.getD ""

def qualifier? (n : Node) : Option String :=
  let qualifier := n.attr "module"
  if qualifier.isNull then none else some qualifier.plainText

/-- Qualifier and name joined by a point, for looking up well-known calls. -/
def qualifiedName (n : Node) : String :=
  (n.attr "module").plainText ++ "." ++ n.name

def childOfKind? (n : Node) (kind : Kind) : Option Node :=
  n.children.find? (·.kind == kind)

def childrenOfKind (n : Node) (kind : Kind) : List Node :=
  n.children.filter (·.kind == kind)

mutual

/-- All nodes of a tree, parents before children. -/
def preorder : Node → List Node
  | ⟨kind, span, attributes, children⟩ =>
    ⟨kind, span, attributes, children⟩ :: preorderAll children
  termination_by structural n => n

/-- All nodes of several trees, one tree after the other. -/
def preorderAll : List Node → List Node
  | [] => []
  | n :: rest => preorder n ++ preorderAll rest
  termination_by structural ns => ns

end

mutual

/-- The nodes of a tree without those below a node of a skipped kind. -/
def outlineBelow (skip : Kind → Bool) : Node → List Node
  | ⟨kind, span, attributes, children⟩ =>
    ⟨kind, span, attributes, children⟩ ::
      (if skip kind then [] else outlineAll skip children)
  termination_by structural n => n

/-- The nodes of several trees without those below a node of a skipped kind. -/
def outlineAll (skip : Kind → Bool) : List Node → List Node
  | [] => []
  | n :: rest => outlineBelow skip n ++ outlineAll skip rest
  termination_by structural ns => ns

end

/-- The nodes of a tree, parents before children. A node of a skipped kind is
listed, what is below it is not; the root is always entered. -/
def outline (n : Node) (skip : Kind → Bool) : List Node :=
  n :: outlineAll skip n.children

mutual

def mapSpans (change : Span → Span) : Node → Node
  | ⟨kind, span, attributes, children⟩ =>
    ⟨kind, change span, attributes, mapSpansAll change children⟩
  termination_by structural n => n

def mapSpansAll (change : Span → Span) : List Node → List Node
  | [] => []
  | n :: rest => mapSpans change n :: mapSpansAll change rest
  termination_by structural ns => ns

end

mutual

/-- The nodes of a tree with their depth below the root. -/
def leveled (depth : Nat) : Node → List (Nat × Node)
  | ⟨kind, span, attributes, children⟩ =>
    (depth, ⟨kind, span, attributes, children⟩) :: leveledAll (depth + 1) children
  termination_by structural n => n

def leveledAll (depth : Nat) : List Node → List (Nat × Node)
  | [] => []
  | n :: rest => leveled depth n ++ leveledAll depth rest
  termination_by structural ns => ns

end

@[simp]
theorem preorderAll_eq_flatMap (ns : List Node) :
    preorderAll ns = ns.flatMap preorder := by
  induction ns with
  | nil => rfl
  | cons n rest inductionHypothesis =>
      rw [preorderAll, inductionHypothesis, List.flatMap_cons]

/-- A node comes first, and the nodes of its children follow one after the other. -/
theorem preorder_eq (n : Node) :
    n.preorder = n :: n.children.flatMap preorder := by
  obtain ⟨kind, span, attributes, children⟩ := n
  rw [preorder, preorderAll_eq_flatMap]

end Node
end StyleAudit
