import StyleAudit.Document.Value

/-!
# Writing JSON

`Value.compactJson` writes a value without white space, `Value.indentedJson`
over several lines, two more spaces for every level. Both write ASCII only:
other characters are escaped by their 16-bit units. A date or time, which JSON
does not have, is written as a text.
-/

namespace StyleAudit
namespace JsonPrinter

def unitEscape (unit : Nat) : String :=
  "\\u" ++ Text.hexadecimal 4 unit

def codeText (code : Nat) : String :=
  let c := Char.ofNat code
  if c = '"' then "\\\""
  else if c = '\\' then "\\\\"
  else if c = '\n' then "\\n"
  else if c = '\r' then "\\r"
  else if c = '\t' then "\\t"
  else if c = '\x08' then "\\b"
  else if c = '\x0c' then "\\f"
  else if 0x20 ≤ code ∧ code < 0x7f then String.ofList [c]
  else String.join ((Text.units code).map unitEscape)

def textJson (text : String) : String :=
  "\"" ++ String.join ((Text.codes text).map codeText) ++ "\""

def floatJson : Binary64 → String
  | .nan => "NaN"
  | .infinite false => "Infinity"
  | .infinite true => "-Infinity"
  | value => Layout.plain.text value

/-- How lists and tables are spread over lines. -/
inductive Style
  | compact
  | indented
  deriving DecidableEq, Repr

/-- What separates an item at a level from what is before it. -/
def Style.lineBreak : Style → (level : Nat) → String
  | .compact, _ => ""
  | .indented, level => "\n" ++ String.ofList (List.replicate (2 * level) ' ')

def Style.colon : Style → String
  | .compact => ":"
  | .indented => ": "

mutual

/-- A value whose line is indented to a level. -/
def json (style : Style) (level : Nat) : Value → String
  | .null => "null"
  | .bool true => "true"
  | .bool false => "false"
  | .int value => toString value
  | .float value => floatJson value
  | .text value => textJson value
  | .moment value => textJson value.display
  | .list [] => "[]"
  | .list items => "[" ++ itemsJson style (level + 1) items ++ style.lineBreak level ++ "]"
  | .table [] => "\x7b\x7d"
  | .table entries =>
    "\x7b" ++ entriesJson style (level + 1) entries ++ style.lineBreak level ++ "\x7d"
  termination_by structural value => value

def itemsJson (style : Style) (level : Nat) : List Value → String
  | [] => ""
  | [item] => style.lineBreak level ++ json style level item
  | item :: next :: rest =>
    style.lineBreak level ++ json style level item ++ "," ++ itemsJson style level (next :: rest)
  termination_by structural items => items

def entriesJson (style : Style) (level : Nat) : List (String × Value) → String
  | [] => ""
  | [(key, value)] => style.lineBreak level ++ textJson key ++ style.colon ++ json style level value
  | (key, value) :: next :: rest =>
    style.lineBreak level ++ textJson key ++ style.colon ++ json style level value ++ ","
      ++ entriesJson style level (next :: rest)
  termination_by structural entries => entries

end

end JsonPrinter

def Value.compactJson (value : Value) : String :=
  JsonPrinter.json .compact 0 value

def Value.indentedJson (value : Value) : String :=
  JsonPrinter.json .indented 0 value

end StyleAudit
