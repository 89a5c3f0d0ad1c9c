import StyleAudit.Document.JsonPrinter
import StyleAudit.Document.Literal

/-!
# Fields

Named fields are given by a table or, just as well, by a list of pairs; of two
pairs with one key the later counts. A pair is anything with two parts: a list
of two items, a table of two keys, a text of two characters. `Value.fields`
reads the fields of a value or says what is wrong with it.
-/

namespace StyleAudit

/-- Why a value describes no fields. -/
inductive FieldsFault
  | noParts (found : Value)
  /-- An item without parts, by its position. -/
  | itemWithoutParts (position : Nat)
  | notPair (position parts : Nat)
  | unusableKey (found : Value)
  deriving Repr

def FieldsFault.message : FieldsFault → String
  | noParts found => s!"'{found.typeWord}' object is not iterable"
  | itemWithoutParts position =>
    s!"cannot convert dictionary update sequence element #{position} to a sequence"
  | notPair position parts =>
    s!"dictionary update sequence element #{position} has length {parts}; 2 is required"
  | unusableKey found => s!"unhashable type: '{found.typeWord}'"

namespace Value

/-- The parts of a value: the characters of a text, the items of a list or the
keys of a table. -/
def parts? : Value → Option (List Value)
  | text value => some ((Text.codes value).map fun code => text (Text.ofCodes [code]))
  | list items => some items
  | table entries => some (entries.map fun entry => text entry.1)
  | _ => none

/-- The key and the value of a pair, which stands at a position of a list. -/
def readPair (position : Nat) (item : Value) : Except FieldsFault (Literal × Value) :=
  match item.parts? with
  | none => .error (.itemWithoutParts position)
  | some [key, value] =>
    match Literal.ofValue? key with
    | none => .error (.unusableKey key)
    | some key => .ok (key, value)
  | some parts => .error (.notPair position parts.length)

/-- Put a pair among others: a known key keeps its place. -/
def putPair (done : List (Literal × Value)) (pair : Literal × Value) : List (Literal × Value) :=
  if done.any fun known => known.1.same pair.1 then
    done.map fun known => if known.1.same pair.1 then (known.1, pair.2) else known
  else done ++ [pair]

/-- The pairs of a list, the first at a position, put among those read. -/
def readPairs (position : Nat) (done : List (Literal × Value)) :
    List Value → Except FieldsFault (List (Literal × Value))
  | [] => .ok done
  | item :: rest => do
    readPairs (position + 1) (putPair done (← readPair position item)) rest

def fieldName : Literal → String
  | .text name => name
  | key => key.toValue.compactJson

def fields : Value → Except FieldsFault (List (String × Value))
  | table entries => .ok entries
  | value =>
    match value.parts? with
    | none => .error (.noParts value)
    | some items => (readPairs 0 [] items).map fun pairs =>
      pairs.map fun (key, value) => (fieldName key, value)

/-- The fields of a value that is given; a blank one has none. -/
def givenFields (value : Value) : Except FieldsFault (List (String × Value)) :=
  if value.isGiven then value.fields else .ok []

end Value
end StyleAudit
