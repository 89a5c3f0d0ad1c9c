import StyleAudit.Text.Printable
import StyleAudit.Text.Units

/-!
# Quoted text

`quoted` writes a text between quotation marks so that every character shows:
backslashes and the mark itself are escaped, and so is every character that
is not printable.
-/

namespace StyleAudit.Text

/-- A natural number in lower-case hexadecimal, filled with zeros up to a
width. -/
def hexadecimal (width value : Nat) : String :=
  let digits := Nat.toDigits 16 value
  String.ofList (List.replicate (width - digits.length) '0' ++ digits)

/-- The mark around a text: the apostrophe, unless the text holds one and no
double quote. -/
def quoteMark (text : String) : Char :=
  if text.toList.contains '\'' && !text.toList.contains '"' then '"' else '\''

def quotedCode (mark : Char) (code : Nat) : String :=
  let c := Char.ofNat code
  if c = mark ∨ c = '\\' then String.ofList ['\\', c]
  else if c = '\n' then "\\n"
  else if c = '\r' then "\\r"
  else if c = '\t' then "\\t"
  else if isPrintable code then String.ofList [c]
  else if code < 0x100 then "\\x" ++ hexadecimal 2 code
  else if code < 0x10000 then "\\u" ++ hexadecimal 4 code
  else "\\U" ++ hexadecimal 8 code

/-- The text between quotation marks, with what does not print escaped. -/
def quoted (text : String) : String :=
  let mark := quoteMark text
  String.ofList [mark] ++ String.join ((codes text).map (quotedCode mark)) ++ String.ofList [mark]

end StyleAudit.Text
