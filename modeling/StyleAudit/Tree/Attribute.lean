import StyleAudit.Document.Literal

/-!
# Attributes

A node carries named attributes. Each is one literal or a list of literals.
Lists and whole sets of attributes are compared so that a NaN is the same as
itself. `Attribute.plainText` is the text of an attribute in names and
messages.
-/

namespace StyleAudit

/-- An attribute: one literal or a list of them. -/
inductive Attribute
  | one (value : Literal)
  | many (values : List Literal)
  deriving DecidableEq, Repr, Inhabited

/-- The attributes of a node by name, each name once. -/
abbrev Attributes := List (String × Attribute)

namespace Attribute

/-- Two lists agree position by position. -/
def sameLists : List Literal → List Literal → Bool
  | [], [] => true
  | a :: as, b :: bs => a.same b && sameLists as bs
  | _, _ => false

/-- Equality of attributes; inside a list a NaN is the same as itself. -/
def equals : Attribute → Attribute → Bool
  | one a, one b => a.equals b
  | many as, many bs => sameLists as bs
  | _, _ => false

/-- Equality of attributes that takes a NaN for the same as itself. -/
def same : Attribute → Attribute → Bool
  | one a, one b => a.same b
  | many as, many bs => sameLists as bs
  | _, _ => false

/-- The attribute is absent or null. -/
def isNull : Attribute → Bool
  | one .null => true
  | _ => false

def text? : Attribute → Option String
  | one (.text value) => some value
  | _ => none

def isText (a : Attribute) (word : String) : Bool :=
  a.text? == some word

def isTextIn (a : Attribute) (words : List String) : Bool :=
  a.text?.any words.contains

/-- The text of an attribute: a list is written between parentheses, one item
followed by a comma. -/
def plainText : Attribute → String
  | one value => value.plainText
  | many [value] => "(" ++ value.display ++ ",)"
  | many values => "(" ++ String.intercalate ", " (values.map Literal.display) ++ ")"

end Attribute

/-- The same names with the same attributes, in any order. -/
def Attributes.same (left right : Attributes) : Bool :=
  left.length == right.length &&
    left.all fun (name, value) => (right.lookup name).any value.same

end StyleAudit
