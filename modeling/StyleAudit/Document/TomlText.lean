import StyleAudit.Document.TomlTable
import StyleAudit.Number.Overlong

/-!
# Reading TOML

`TomlText.read` decodes a TOML document into a table: headers of tables and
of arrays of tables, dotted and quoted keys, texts, numbers, truth values,
dates and times, arrays and inline tables. An integer in base ten with too
many digits ends the reading where it stands.
-/

namespace StyleAudit

/-- Why a document is not read. -/
inductive TomlFault
  | malformed
  | overlong (number : OverlongInteger)
  deriving DecidableEq, Repr

namespace TomlText

/-- A step of reading: a result and the text after it. -/
abbrev Reading (α : Type) := Except TomlFault (α × List Char)

/-- The result of a step; without one the document is malformed. -/
def require {α : Type} : Option α → Except TomlFault α
  | some result => .ok result
  | none => .error .malformed

def isSpace (c : Char) : Bool := c == ' ' || c == '\t'

def skipSpace (input : List Char) : List Char := input.dropWhile isSpace

def isControl (c : Char) : Bool :=
  (c.toNat < 0x20 && c != '\t') || c.toNat == 0x7f

def skipComment? : List Char → Option (List Char)
  | '#' :: rest =>
    if (rest.takeWhile (· != '\n')).any isControl then none
    else some (rest.dropWhile (· != '\n'))
  | input => some input

def skipLines? : (fuel : Nat) → List Char → Option (List Char)
  | 0, input => some input
  | fuel + 1, input =>
    match input.dropWhile fun c => isSpace c || c == '\n' with
    | '#' :: rest => (skipComment? ('#' :: rest)).bind (skipLines? fuel)
    | rest => some rest

/-! ## Texts -/

def hexDigits : List Char := "0123456789abcdef".toList

def digitValue? (c : Char) : Option Nat := hexDigits.idxOf? c.toLower

def numberOf (base : Nat) (digits : List Char) : Nat :=
  digits.foldl (fun total c => base * total + (digitValue? c).getD 0) 0

/-- The character of an escaped code point with a number of digits. -/
def readCodePoint (size : Nat) (input : List Char) : Option (Char × List Char) :=
  let digits := input.take size
  let code := numberOf 16 digits
  if digits.length = size ∧ digits.all (digitValue? · |>.isSome) ∧ code.isValidChar then
    some (Char.ofNat code, input.drop size)
  else none

def shortEscape? : Char → Option Char
  | 'b' => some '\x08'
  | 't' => some '\t'
  | 'n' => some '\n'
  | 'f' => some '\x0c'
  | 'r' => some '\r'
  | '"' => some '"'
  | '\\' => some '\\'
  | _ => none

def readEscape : List Char → Option (Char × List Char)
  | 'u' :: rest => readCodePoint 4 rest
  | 'U' :: rest => readCodePoint 8 rest
  | c :: rest => (shortEscape? c).map fun d => (d, rest)
  | [] => none

/-- The text after a backslash that ends its line: white space up to the next
visible character is left out. -/
def skipFoldedLine? (input : List Char) : Option (List Char) :=
  match skipSpace input with
  | [] => some []
  | '\n' :: rest => some (rest.dropWhile fun c => isSpace c || c == '\n')
  | _ => none

/-- A text on one line up to its closing double quote, added to what was read,
the last character first. -/
def readBasic : (fuel : Nat) → (done input : List Char) → Option (String × List Char)
  | 0, _, _ | _ + 1, _, [] => none
  | _ + 1, done, '"' :: rest => some (Text.hold done.reverse, rest)
  | fuel + 1, done, '\\' :: rest =>
    (readEscape rest).bind fun (c, rest) => readBasic fuel (c :: done) rest
  | fuel + 1, done, c :: rest => if isControl c then none else readBasic fuel (c :: done) rest

/-- Up to two quotes right before the three closing ones belong to the text. -/
def closeMultiline (quote : Char) (done rest : List Char) : String × List Char :=
  match rest with
  | a :: b :: rest =>
    if a = quote ∧ b = quote then (Text.hold (quote :: quote :: done).reverse, rest)
    else if a = quote then (Text.hold (quote :: done).reverse, b :: rest)
    else (Text.hold done.reverse, a :: b :: rest)
  | [a] =>
    if a = quote then (Text.hold (quote :: done).reverse, [])
    else (Text.hold done.reverse, [a])
  | [] => (Text.hold done.reverse, [])

/-- The backslash that was just read ends its line. -/
def foldsLine : List Char → Bool
  | c :: _ => isSpace c || c == '\n'
  | [] => false

/-- A text over several lines up to its three closing double quotes. -/
def readMultilineBasic : (fuel : Nat) → (done input : List Char) → Option (String × List Char)
  | 0, _, _ | _ + 1, _, [] => none
  | _ + 1, done, '"' :: '"' :: '"' :: rest => some (closeMultiline '"' done rest)
  | fuel + 1, done, '\\' :: rest =>
    if foldsLine rest then (skipFoldedLine? rest).bind (readMultilineBasic fuel done)
    else (readEscape rest).bind fun (c, rest) => readMultilineBasic fuel (c :: done) rest
  | fuel + 1, done, c :: rest =>
    if isControl c && c != '\n' then none else readMultilineBasic fuel (c :: done) rest

/-- A text without escapes on one line up to its closing apostrophe. -/
def readLiteral (input : List Char) : Option (String × List Char) :=
  let content := input.takeWhile (· != '\'')
  match input.dropWhile (· != '\'') with
  | _ :: rest => if content.any isControl then none else some (Text.hold content, rest)
  | [] => none

/-- A text without escapes up to its three closing apostrophes. -/
def readMultilineLiteral (done : List Char) : List Char → Option (String × List Char)
  | '\'' :: '\'' :: '\'' :: rest => some (closeMultiline '\'' done rest)
  | c :: rest =>
    if isControl c && c != '\n' then none else readMultilineLiteral (c :: done) rest
  | [] => none

def dropLineEnd : List Char → List Char
  | '\n' :: rest => rest
  | input => input

def readText? : List Char → Option (Option (String × List Char))
  | '"' :: '"' :: '"' :: rest => some (readMultilineBasic rest.length [] (dropLineEnd rest))
  | '"' :: rest => some (readBasic rest.length [] rest)
  | '\'' :: '\'' :: '\'' :: rest => some (readMultilineLiteral [] (dropLineEnd rest))
  | '\'' :: rest => some (readLiteral rest)
  | _ => none

/-! ## Keys -/

def isBareKeyChar (c : Char) : Bool := c.isAlphanum || c == '-' || c == '_'

def readKeyPart : List Char → Option (String × List Char)
  | '"' :: rest => readBasic rest.length [] rest
  | '\'' :: rest => readLiteral rest
  | input =>
    match input.span isBareKeyChar with
    | ([], _) => none
    | (name, rest) => some (String.ofList name, rest)

def readKey : (fuel : Nat) → List Char → Option (List String × List Char)
  | 0, _ => none
  | fuel + 1, input => do
    let (part, rest) ← readKeyPart input
    match skipSpace rest with
    | '.' :: rest =>
      let (parts, rest) ← readKey fuel (skipSpace rest)
      some (part :: parts, rest)
    | rest => some ([part], rest)

/-! ## Numbers and words -/

/-- Digits with single underscores between them; `started` tells that a digit
is right before. -/
def spanDigits (isDigit : Char → Bool) (started : Bool) : List Char → List Char × List Char
  | '_' :: c :: rest =>
    if started && isDigit c then
      let (digits, after) := spanDigits isDigit true rest
      (c :: digits, after)
    else ([], '_' :: c :: rest)
  | c :: rest =>
    if isDigit c then
      let (digits, after) := spanDigits isDigit true rest
      (c :: digits, after)
    else ([], c :: rest)
  | [] => ([], [])

def isDigitOf (base : Nat) (c : Char) : Bool :=
  (digitValue? c).any (· < base)

def readBased? (base : Nat) (input : List Char) : Option (Value × List Char) :=
  match spanDigits (isDigitOf base) false input with
  | ([], _) => none
  | (digits, rest) => some (.int (numberOf base digits), rest)

def baseOf? : Char → Option Nat
  | 'x' => some 16
  | 'o' => some 8
  | 'b' => some 2
  | _ => none

def splitSign : List Char → Bool × List Char
  | '-' :: rest => (true, rest)
  | '+' :: rest => (false, rest)
  | input => (false, input)

/-- The digits after a point, unless there are none. -/
def splitFraction : List Char → List Char × List Char
  | '.' :: rest =>
    match spanDigits Char.isDigit false rest with
    | ([], _) => ([], '.' :: rest)
    | split => split
  | input => ([], input)

/-- The exponent, unless its mark has no digits after it. -/
def splitExponent : List Char → Option Int × List Char
  | mark :: rest =>
    if mark == 'e' || mark == 'E' then
      let (negative, unsigned) := splitSign rest
      match spanDigits Char.isDigit false unsigned with
      | ([], _) => (none, mark :: rest)
      | (digits, after) =>
        let size : Int := numberOf 10 digits
        (some (if negative then -size else size), after)
    else (none, mark :: rest)
  | [] => (none, [])

def readInteger (negative : Bool) (digits : List Char) : Except TomlFault Value :=
  match OverlongInteger.ofDigitCount? digits.length with
  | some number => .error (.overlong number)
  | none =>
    let magnitude : Int := numberOf 10 digits
    .ok (.int (if negative then -magnitude else magnitude))

/-- A number in base ten: whole if it has neither a fraction nor an
exponent. -/
def readDecimal (input : List Char) : Reading Value :=
  let (negative, unsigned) := splitSign input
  let (whole, rest) := match unsigned with
    | '0' :: rest => (['0'], rest)
    | _ => spanDigits Char.isDigit false unsigned
  if whole.isEmpty then .error .malformed
  else
    let (fraction, rest) := splitFraction rest
    let (exponent, rest) := splitExponent rest
    if fraction.isEmpty && exponent.isNone then
      (readInteger negative whole).map fun value => (value, rest)
    else
      .ok (.float (Binary64.ofDecimal negative (numberOf 10 (whole ++ fraction))
        (exponent.getD 0 - fraction.length)), rest)

def words : List (String × Value) :=
  [("true", .bool true), ("false", .bool false), ("inf", .float (.infinite false)),
    ("+inf", .float (.infinite false)), ("-inf", .float (.infinite true)), ("nan", .float .nan),
    ("+nan", .float .nan), ("-nan", .float .nan)]

def readWord? (input : List Char) : Option (Value × List Char) :=
  (words.find? fun word => word.1.toList.isPrefixOf input).map fun word =>
    (word.2, input.drop word.1.length)

def readNumber (input : List Char) : Reading Value :=
  match input with
  | '0' :: letter :: rest =>
    match (baseOf? letter).bind fun base => readBased? base rest with
    | some found => .ok found
    | none => readDecimal input
  | _ => readDecimal input

/-! ## Values -/

mutual

def readValue : (fuel : Nat) → List Char → Except TomlFault (Value × List Char)
  | 0, _ => .error .malformed
  | fuel + 1, '[' :: rest => do
    match ← require (skipLines? rest.length rest) with
    | ']' :: rest => .ok (.list [], rest)
    | rest => (readItems fuel rest).map fun (items, rest) => (.list items, rest)
  | fuel + 1, '\x7b' :: rest =>
    match skipSpace rest with
    | '\x7d' :: rest => .ok (.table [], rest)
    | rest => (readFields fuel [] rest).map fun (entries, rest) =>
      (.table (TomlEntry.toValues entries), rest)
  | _ + 1, input =>
    match readText? input with
    | some reading => (require reading).map fun (text, rest) => (.text text, rest)
    | none =>
      match readWord? input with
      | some found => .ok found
      | none =>
        match Moment.read? input with
        | some (moment, rest) => .ok (.moment moment, rest)
        | none => readNumber input

/-- The items of an array up to its closing bracket; a comma may stand after
the last one. -/
def readItems : (fuel : Nat) → List Char → Except TomlFault (List Value × List Char)
  | 0, _ => .error .malformed
  | fuel + 1, input => do
    let (item, rest) ← readValue fuel input
    match ← require (skipLines? rest.length rest) with
    | ']' :: rest => .ok ([item], rest)
    | ',' :: rest =>
      match ← require (skipLines? rest.length rest) with
      | ']' :: rest => .ok ([item], rest)
      | rest =>
        let (items, rest) ← readItems fuel rest
        .ok (item :: items, rest)
    | _ => .error .malformed

/-- The fields of an inline table up to its closing brace, added to those
read. -/
def readFields : (fuel : Nat) → TomlEntries → List Char →
    Except TomlFault (TomlEntries × List Char)
  | 0, _, _ => .error .malformed
  | fuel + 1, done, input => do
    let (key, rest) ← require (readKey input.length input)
    match rest with
    | '=' :: rest =>
      let (value, rest) ← readValue fuel (skipSpace rest)
      let entries ← require (TomlEntries.assign 0 value key done)
      match skipSpace rest with
      | '\x7d' :: rest => .ok (entries, rest)
      | ',' :: rest => readFields fuel entries (skipSpace rest)
      | _ => .error .malformed
    | _ => .error .malformed

end

/-! ## Documents -/

/-- A document as far as it was read: its entries, the header of the current
section and the number of headers so far. -/
structure Draft where
  entries : TomlEntries
  header : List String
  owner : Nat

namespace Draft

def open? (draft : Draft) (key : List String)
    (change : TomlEntries → String → Option TomlEntries) : Option Draft :=
  match key.getLast? with
  | none => none
  | some name =>
    (TomlEntries.edit (change · name) key.dropLast draft.entries).map fun entries =>
      ⟨entries, key, draft.owner + 1⟩

/-- Assign a value to a dotted key in the current section. -/
def assign? (draft : Draft) (key : List String) (value : Value) : Option Draft :=
  (TomlEntries.edit (TomlEntries.assign draft.owner value key) draft.header draft.entries).map
    fun entries => { draft with entries := entries }

end Draft

/-- The draft after one statement, and the text after the statement. -/
def readStatement (draft : Draft) : List Char → Except TomlFault (Draft × List Char)
  | '[' :: '[' :: rest => do
    let (key, rest) ← require (readKey rest.length (skipSpace rest))
    match rest with
    | ']' :: ']' :: rest =>
      .ok (← require (draft.open? key TomlEntries.append), skipSpace rest)
    | _ => .error .malformed
  | '[' :: rest => do
    let (key, rest) ← require (readKey rest.length (skipSpace rest))
    match rest with
    | ']' :: rest => .ok (← require (draft.open? key TomlEntries.declare), skipSpace rest)
    | _ => .error .malformed
  | '#' :: rest => .ok (draft, '#' :: rest)
  | input => do
    let (key, rest) ← require (readKey input.length input)
    match rest with
    | '=' :: rest =>
      let (value, rest) ← readValue (2 * rest.length + 2) (skipSpace rest)
      .ok (← require (draft.assign? key value), skipSpace rest)
    | _ => .error .malformed

/-- The statements of a document; each takes up a line. -/
def readStatements : (fuel : Nat) → Draft → List Char → Except TomlFault Draft
  | 0, draft, _ => .ok draft
  | fuel + 1, draft, input =>
    match skipSpace input with
    | [] => .ok draft
    | '\n' :: rest => readStatements fuel draft rest
    | start => do
      let (draft, rest) ← readStatement draft start
      match ← require (skipComment? rest) with
      | [] => .ok draft
      | '\n' :: rest => readStatements fuel draft rest
      | _ => .error .malformed

def unifyLineEnds : List Char → List Char
  | '\r' :: '\n' :: rest => '\n' :: unifyLineEnds rest
  | c :: rest => c :: unifyLineEnds rest
  | [] => []

def read (input : List Char) : Except TomlFault (List (String × Value)) :=
  (readStatements (input.length + 1) ⟨[], [], 1⟩ (unifyLineEnds input)).map fun draft =>
    TomlEntry.toValues draft.entries

end TomlText
end StyleAudit
