import StyleAudit.Document.Moment
import StyleAudit.Number.Shortest
import StyleAudit.Text.Quoted

/-!
# Document values

`Value` is what a decoded document holds: a tree dump, a section of settings
or an entry of the guidance registry. Tables keep their entries in the order
of the document and name every key once.

* `Value.find?` looks up a key of a table.
* `Value.display` is the text of a value in messages.
-/

namespace StyleAudit

/-- A decoded value. -/
inductive Value
  | null
  | bool (value : Bool)
  | int (value : Int)
  | float (value : Binary64)
  | text (value : String)
  | moment (value : Moment)
  | list (items : List Value)
  | table (entries : List (String × Value))
  deriving Repr, Inhabited

namespace Value

/-- The entry of a table under a key; other values have no entries. -/
def find? (key : String) : Value → Option Value
  | table entries => entries.lookup key
  | _ => none

def entries? : Value → Option (List (String × Value))
  | table entries => some entries
  | _ => none

def text? : Value → Option String
  | text value => some value
  | _ => none

def typeWord : Value → String
  | null => "NoneType"
  | bool _ => "bool"
  | int _ => "int"
  | float _ => "float"
  | text _ => "str"
  | moment value => value.typeWord
  | list _ => "list"
  | table _ => "dict"

/-- The value counts as given: it is not null, false, zero or empty. -/
def isGiven : Value → Bool
  | null => false
  | bool value => value
  | int value => value != 0
  | float value => !value.equals (Binary64.zero false)
  | text value => value != ""
  | moment _ => true
  | list items => !items.isEmpty
  | table entries => !entries.isEmpty

/-- Put an entry into a table: a known key keeps its place, a new one goes to
the end. -/
def insertEntry (entries : List (String × Value)) (key : String) (value : Value) :
    List (String × Value) :=
  if entries.any (·.1 == key) then
    entries.map fun entry => if entry.1 == key then (key, value) else entry
  else entries ++ [(key, value)]

/-- All entries of the second table put into the first. -/
def mergeEntries (entries changes : List (String × Value)) : List (String × Value) :=
  changes.foldl (fun merged entry => insertEntry merged entry.1 entry.2) entries

mutual

/-- The text of a value inside another one, where texts are quoted. -/
def display : Value → String
  | null => "None"
  | bool true => "True"
  | bool false => "False"
  | int value => toString value
  | float value => Layout.plain.text value
  | text value => Text.quoted value
  | moment value => value.display
  | list items => "[" ++ displayItems items ++ "]"
  | table entries => "\x7b" ++ displayEntries entries ++ "\x7d"
  termination_by structural value => value

def displayItems : List Value → String
  | [] => ""
  | [item] => display item
  | item :: next :: rest => display item ++ ", " ++ displayItems (next :: rest)
  termination_by structural items => items

def displayEntries : List (String × Value) → String
  | [] => ""
  | [(key, value)] => Text.quoted key ++ ": " ++ display value
  | (key, value) :: next :: rest =>
    Text.quoted key ++ ": " ++ display value ++ ", " ++ displayEntries (next :: rest)
  termination_by structural entries => entries

end

/-- The text of a value on its own: a text stands for itself. -/
def plainText : Value → String
  | text value => value
  | value => value.display

end Value
end StyleAudit
