import StyleAudit.Document.Value

/-!
# Tables of a TOML document

A document builds its tables statement by statement. A `TomlEntry` knows how
it came about, since that decides what may still be added to it:

* a value, inline tables and arrays included, is closed;
* a table under a header of its own gets no second header, and dotted keys do
  not reach into it;
* a table made by a dotted key is open to the dotted keys of that section;
* a table that only leads to others is open to everything.
-/

namespace StyleAudit

/-- How a table came about. -/
inductive TableOrigin
  /-- On the way to a table with a header. -/
  | onTheWay
  /-- By the header of its section. -/
  | header
  /-- By a dotted key in a section, which is known by its number. -/
  | dotted (owner : Nat)
  deriving DecidableEq, Repr

/-- An entry of a table under construction. -/
inductive TomlEntry
  | value (value : Value)
  | table (origin : TableOrigin) (entries : List (String × TomlEntry))
  /-- An array of tables: those that are finished, and the entries of the last
  one. -/
  | tables (finished : List Value) (last : List (String × TomlEntry))
  deriving Repr

abbrev TomlEntries := List (String × TomlEntry)

namespace TomlEntry

mutual

def toValue : TomlEntry → Value
  | value content => content
  | table _ entries => .table (toValues entries)
  | tables finished last => .list (finished ++ [.table (toValues last)])
  termination_by structural entry => entry

def toValues : List (String × TomlEntry) → List (String × Value)
  | [] => []
  | (key, entry) :: rest => (key, toValue entry) :: toValues rest
  termination_by structural entries => entries

end

end TomlEntry

namespace TomlEntries

/-- Put an entry under a name, in place of one of the same name. -/
def put (entries : TomlEntries) (name : String) (entry : TomlEntry) : TomlEntries :=
  if entries.any (·.1 == name) then
    entries.map fun (other, old) => if other == name then (name, entry) else (other, old)
  else entries ++ [(name, entry)]

/-- Change the entries of the table that names lead to. Tables on the way are
made where there are none, and an array of tables leads to its last one. -/
def edit (change : TomlEntries → Option TomlEntries) :
    List String → TomlEntries → Option TomlEntries
  | [], entries => change entries
  | name :: rest, entries =>
    match entries.lookup name with
    | none => (edit change rest []).map fun below => entries.put name (.table .onTheWay below)
    | some (.table origin below) =>
      (edit change rest below).map fun below => entries.put name (.table origin below)
    | some (.tables finished last) =>
      (edit change rest last).map fun last => entries.put name (.tables finished last)
    | some (.value _) => none

/-- Open a table under its header. -/
def declare (entries : TomlEntries) (name : String) : Option TomlEntries :=
  match entries.lookup name with
  | none => some (entries.put name (.table .header []))
  | some (.table .onTheWay below) => some (entries.put name (.table .header below))
  | _ => none

/-- Open the next table of an array under its header. -/
def append (entries : TomlEntries) (name : String) : Option TomlEntries :=
  match entries.lookup name with
  | none => some (entries.put name (.tables [] []))
  | some (.tables finished last) =>
    some (entries.put name (.tables (finished ++ [.table (TomlEntry.toValues last)]) []))
  | _ => none

/-- Assign a value to a dotted key in the section of a number. -/
def assign (owner : Nat) (content : Value) : List String → TomlEntries → Option TomlEntries
  | [], _ => none
  | [name], entries =>
    match entries.lookup name with
    | none => some (entries.put name (.value content))
    | some _ => none
  | name :: rest, entries =>
    let below? := match entries.lookup name with
      | none => some []
      | some (.table .onTheWay below) => some below
      | some (.table (.dotted other) below) => if other = owner then some below else none
      | _ => none
    match below? with
    | none => none
    | some below =>
      (assign owner content rest below).map fun below =>
        entries.put name (.table (.dotted owner) below)

end TomlEntries
end StyleAudit
