import StyleAudit.Document.Value
import StyleAudit.Number.Overlong

/-!
# Reading JSON

`JsonText.read` decodes one JSON document. The numbers `NaN`, `Infinity` and
`-Infinity` are accepted, a number with a point or an exponent is a
floating-point one, and of two entries with one key the later value counts.
A fault is reported with the line on which it stands. An integer with too many
digits ends the reading as well, without being a fault of the document.
-/

namespace StyleAudit

/-- What is wrong with a text that is not JSON. -/
inductive JsonFault
  | expectedValue
  | expectedComma
  | expectedColon
  | expectedName
  | unterminatedText
  | controlCharacter
  | unknownEscape
  | badCodePoint
  | extraData
  | byteOrderMark
  deriving DecidableEq, Repr

/-- Why a document cannot be read. -/
inductive JsonError
  /-- The text is not JSON; the lines are counted from one. -/
  | fault (fault : JsonFault) (line : Nat)
  | overlong (number : OverlongInteger)
  deriving DecidableEq, Repr

def JsonFault.message : JsonFault → String
  | .expectedValue => "Expecting value"
  | .expectedComma => "Expecting ',' delimiter"
  | .expectedColon => "Expecting ':' delimiter"
  | .expectedName => "Expecting property name enclosed in double quotes"
  | .unterminatedText => "Unterminated string starting at"
  | .controlCharacter => "Invalid control character at"
  | .unknownEscape => "Invalid \\escape"
  | .badCodePoint => "Invalid \\uXXXX escape"
  | .extraData => "Extra data"
  | .byteOrderMark => "Unexpected UTF-8 BOM (decode using utf-8-sig)"

namespace JsonText

/-- Why reading stops: at a fault, given with the text from its place on, or
at an integer. -/
inductive Stop
  | fault (fault : JsonFault) (rest : List Char)
  | overlong (number : OverlongInteger)
  deriving Repr

/-- A step of reading: a result and the text after it. -/
abbrev Reading (α : Type) := Except Stop (α × List Char)

def isSpace (c : Char) : Bool :=
  c == ' ' || c == '\t' || c == '\n' || c == '\r'

def skipSpace (input : List Char) : List Char :=
  input.dropWhile isSpace

def hexValue? (c : Char) : Option Nat :=
  if '0' ≤ c ∧ c ≤ '9' then some (c.toNat - '0'.toNat)
  else if 'a' ≤ c ∧ c ≤ 'f' then some (c.toNat - 'a'.toNat + 10)
  else if 'A' ≤ c ∧ c ≤ 'F' then some (c.toNat - 'A'.toNat + 10)
  else none

def hexCode? (digits : List Char) : Option Nat :=
  if digits.length = 4 then
    digits.foldlM (fun total c => (hexValue? c).map (16 * total + ·)) 0
  else none

/-- The code of an escape. Two escapes that form a surrogate pair are one code
point. The text must go on after each escape. -/
def readCodePoint (start rest : List Char) : Reading Nat :=
  match hexCode? (rest.take 4), rest.drop 4 with
  | none, _ | some _, [] => .error (.fault .badCodePoint start)
  | some code, after =>
    match after with
    | '\\' :: 'u' :: second =>
      if Text.isHighHalf code && 4 < second.length then
        match hexCode? (second.take 4) with
        | none => .error (.fault .badCodePoint start)
        | some low =>
          if Text.isLowHalf low then .ok (Text.joinHalves code low, second.drop 4)
          else .ok (code, after)
      else .ok (code, after)
    | _ => .ok (code, after)

def shortEscape? : Char → Option Char
  | '"' => some '"'
  | '\\' => some '\\'
  | '/' => some '/'
  | 'b' => some '\x08'
  | 'f' => some '\x0c'
  | 'n' => some '\n'
  | 'r' => some '\r'
  | 't' => some '\t'
  | _ => none

/-- A text up to its closing quote. `start` is what is read from the opening
quote on, `done` the codes read so far, the last one first. -/
def readCodes (start : List Char) :
    (fuel : Nat) → (done : List Nat) → (input : List Char) → Reading String
  | 0, _, _ => .error (.fault .unterminatedText start)
  | _ + 1, _, [] => .error (.fault .unterminatedText start)
  | _ + 1, done, '"' :: rest => .ok (Text.ofCodes done.reverse, rest)
  | _ + 1, _, ['\\'] => .error (.fault .unterminatedText start)
  | fuel + 1, done, '\\' :: 'u' :: rest =>
    match readCodePoint ('\\' :: 'u' :: rest) rest with
    | .error stop => .error stop
    | .ok (code, rest) => readCodes start fuel (code :: done) rest
  | fuel + 1, done, '\\' :: c :: rest =>
    match shortEscape? c with
    | none => .error (.fault .unknownEscape ('\\' :: c :: rest))
    | some d => readCodes start fuel (d.toNat :: done) rest
  | fuel + 1, done, c :: rest =>
    if c.toNat < 0x20 then .error (.fault .controlCharacter (c :: rest))
    else readCodes start fuel (c.toNat :: done) rest

/-- A text whose opening quote was just read. -/
def readText (fuel : Nat) (rest : List Char) : Reading String :=
  readCodes ('"' :: rest) fuel [] rest

def isAsciiDigit (c : Char) : Bool := decide ('0' ≤ c ∧ c ≤ '9')

def naturalOf (digits : List Char) : Nat :=
  digits.foldl (fun total c => 10 * total + (c.toNat - '0'.toNat)) 0

/-- The digits of the whole part: one zero, or digits that do not start with
zero. -/
def splitWhole : List Char → List Char × List Char
  | '0' :: rest => (['0'], rest)
  | input => input.span isAsciiDigit

/-- The digits after a point; a point without digits is not part of the
number. -/
def splitFraction : List Char → List Char × List Char
  | '.' :: rest =>
    match rest.span isAsciiDigit with
    | ([], _) => ([], '.' :: rest)
    | split => split
  | input => ([], input)

/-- The sign and the digits of an exponent; a mark without digits is not part
of the number. -/
def splitExponent (input : List Char) : Option (Bool × List Char) × List Char :=
  let fromDigits (negative : Bool) (rest : List Char) :=
    match rest.span isAsciiDigit with
    | ([], _) => (none, input)
    | (digits, after) => (some (negative, digits), after)
  match input with
  | mark :: rest =>
    if mark == 'e' || mark == 'E' then
      match rest with
      | '+' :: unsigned => fromDigits false unsigned
      | '-' :: unsigned => fromDigits true unsigned
      | unsigned => fromDigits false unsigned
    else (none, input)
  | [] => (none, input)

def readInteger (negative : Bool) (digits : List Char) : Except Stop Value :=
  match OverlongInteger.ofDigitCount? digits.length with
  | some number => .error (.overlong number)
  | none =>
    let magnitude : Int := naturalOf digits
    .ok (.int (if negative then -magnitude else magnitude))

/-- A number at the start of the text: an integer unless it has a fraction or
an exponent. -/
def readNumber (input : List Char) : Reading Value :=
  let (negative, unsigned) := match input with
    | '-' :: rest => (true, rest)
    | _ => (false, input)
  match splitWhole unsigned with
  | ([], _) => .error (.fault .expectedValue input)
  | (whole, rest) =>
    let (fraction, rest) := splitFraction rest
    let (exponent, rest) := splitExponent rest
    if fraction.isEmpty && exponent.isNone then
      (readInteger negative whole).map fun value => (value, rest)
    else
      let power : Int := match exponent with
        | none => 0
        | some (true, digits) => -(naturalOf digits : Int)
        | some (false, digits) => naturalOf digits
      .ok (.float (Binary64.ofDecimal negative (naturalOf (whole ++ fraction))
        (power - fraction.length)), rest)

def words : List (String × Value) :=
  [("null", .null), ("true", .bool true), ("false", .bool false), ("NaN", .float .nan),
    ("Infinity", .float (.infinite false)), ("-Infinity", .float (.infinite true))]

def readWord? (input : List Char) : Option (Value × List Char) :=
  (words.find? fun word => word.1.toList.isPrefixOf input).map fun word =>
    (word.2, input.drop word.1.length)

mutual

/-- A value at the start of the text. The fuel is more than twice the length
of the text, so that a list or a text in it never lacks any. -/
def readValue : (fuel : Nat) → List Char → Reading Value
  | 0, input => .error (.fault .expectedValue input)
  | fuel + 1, '"' :: rest => (readText fuel rest).map fun (text, rest) => (.text text, rest)
  | fuel + 1, '[' :: rest =>
    match skipSpace rest with
    | ']' :: rest => .ok (.list [], rest)
    | rest => (readItems fuel rest).map fun (items, rest) => (.list items, rest)
  | fuel + 1, '\x7b' :: rest =>
    match skipSpace rest with
    | '\x7d' :: rest => .ok (.table [], rest)
    | rest => (readEntries fuel [] rest).map fun (entries, rest) => (.table entries, rest)
  | _ + 1, input =>
    match readWord? input with
    | some found => .ok found
    | none => readNumber input

/-- The items of a list up to its closing bracket. -/
def readItems : (fuel : Nat) → List Char → Except Stop (List Value × List Char)
  | 0, input => .error (.fault .expectedValue input)
  | fuel + 1, input => do
    let (item, rest) ← readValue fuel input
    match skipSpace rest with
    | ']' :: rest => .ok ([item], rest)
    | ',' :: rest =>
      let (items, rest) ← readItems fuel (skipSpace rest)
      .ok (item :: items, rest)
    | rest => .error (.fault .expectedComma rest)

/-- The entries of a table up to its closing brace, added to those read. -/
def readEntries : (fuel : Nat) → List (String × Value) → List Char →
    Except Stop (List (String × Value) × List Char)
  | 0, _, input => .error (.fault .expectedName input)
  | fuel + 1, done, '"' :: rest => do
    let (key, rest) ← readText fuel rest
    match skipSpace rest with
    | ':' :: rest =>
      let (value, rest) ← readValue fuel (skipSpace rest)
      let entries := Value.insertEntry done key value
      match skipSpace rest with
      | '\x7d' :: rest => .ok (entries, rest)
      | ',' :: rest => readEntries fuel entries (skipSpace rest)
      | rest => .error (.fault .expectedComma rest)
    | rest => .error (.fault .expectedColon rest)
  | _ + 1, _, input => .error (.fault .expectedName input)

end

/-- The document as one value, with nothing but white space around it. -/
def readDocument (input : List Char) : Except Stop Value :=
  match input with
  | '\ufeff' :: _ => .error (.fault .byteOrderMark input)
  | _ => do
    let start := skipSpace input
    let (value, rest) ← readValue (2 * start.length + 2) start
    match skipSpace rest with
    | [] => .ok value
    | rest => .error (.fault .extraData rest)

/-- Decode a JSON document; a fault is given with its line. -/
def read (input : List Char) : Except JsonError Value :=
  (readDocument input).mapError fun
    | .fault fault rest => .fault fault (1 + (input.count '\n' - rest.count '\n'))
    | .overlong number => .overlong number

end JsonText
end StyleAudit
