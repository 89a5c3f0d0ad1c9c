import StyleAudit.Document.Fields
import StyleAudit.Guidance.Guide
import StyleAudit.Text.Blank
import StyleAudit.Text.Case
import StyleAudit.Text.Order

/-!
# The guidance registry

A registry holds an entry of free fields for every rule id it knows.
`Registry.displayName` and `Registry.instructions` answer for any id: what an
entry leaves out has a default.

A registry file is read unit by unit, so that a character of two 16-bit units
is two halves in it. `Registry.readEntry` says what is wrong with an entry that
describes no fields.
-/

namespace StyleAudit

/-- Entries about rules, by rule id. -/
structure Registry where
  entries : List (String × Value)
  deriving Repr

/-- A paragraph of a registry entry ends its line. -/
def paragraph (text : String) : Value :=
  .text (text ++ "\n")

def Rule.entry (rule : Rule) : List (String × Value) :=
  [("display_name", .text rule.guide.displayName),
    ("severity", .text rule.severity.name),
    ("short_description", .text rule.guide.summary),
    ("rationale", paragraph rule.guide.rationale),
    ("manual_instructions", paragraph rule.guide.instructions),
    ("references", .list (rule.guide.references.map .text))]

namespace Registry

def standard : Registry :=
  ⟨Rule.all.map fun rule => (rule.id, .table rule.entry)⟩

mutual

/-- A value as a registry file reads it: texts hold single units, and a number
that is written with an exponent but without a point is a text. -/
def scalar : Value → Value
  | .float value =>
    let written := JsonPrinter.floatJson value
    if written.toList.contains '.' then .float value else .text written
  | .text value => .text (Text.halved value)
  | .list items => .list (scalars items)
  | .table entries => .table (fields entries)
  | value => value
  termination_by structural value => value

/-- The items of a list as a registry file reads them. -/
def scalars : List Value → List Value
  | [] => []
  | item :: rest => scalar item :: scalars rest
  termination_by structural items => items

/-- The entries of a table as a registry file reads them. -/
def fields : List (String × Value) → List (String × Value)
  | [] => []
  | (key, value) :: rest => (Text.halved key, scalar value) :: fields rest
  termination_by structural entries => entries

end

/-- The registry of a file; a file that is no table has no entries. -/
def ofValue : Value → Registry
  | .table entries => ⟨fields entries⟩
  | _ => ⟨[]⟩

def ids (registry : Registry) : List String :=
  Text.sortedDistinct (registry.entries.map (·.1))

/-- The fields of the entry of an id, unless it is blank. -/
def readEntry (registry : Registry) (id : String) :
    Except FieldsFault (Option (List (String × Value))) :=
  match (registry.entries.lookup id).filter Value.isGiven with
  | none => .ok none
  | some entry => entry.fields.map some

def entry? (registry : Registry) (id : String) : Option (List (String × Value)) :=
  match registry.readEntry id with
  | .ok found => found
  | .error _ => none

/-- A field of an entry, unless it is blank. -/
def given? (entry : List (String × Value)) (key : String) : Option Value :=
  (entry.lookup key).filter Value.isGiven

def titleOfId (id : String) : String :=
  Text.title (id.map fun c => if c = '-' then ' ' else c)

def displayName (registry : Registry) (id : String) : String :=
  match registry.entry? id with
  | none => titleOfId id
  | some entry =>
    match (given? entry "display_name").or (given? entry "short_description") with
    | some value => value.plainText
    | none => id

def generalAdvice : String :=
  "See the style guide. Fix the violation at the reported location."

def instructions (registry : Registry) (id : String) : String :=
  match (registry.entry? id).bind (·.lookup "manual_instructions") with
  | some value => Text.trim value.plainText
  | none => generalAdvice

end Registry
end StyleAudit
