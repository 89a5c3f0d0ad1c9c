/-!
# Console markup

A console reads `[style]` as markup. `escapeMarkup` writes a text so that the
console shows it as it is: a backslash goes before every bracket that would
open a tag, and the backslashes before it are doubled.
-/

namespace StyleAudit.Text

def opensTag (c : Char) : Bool :=
  decide ('a' ≤ c ∧ c ≤ 'z') || c == '#' || c == '/' || c == '@'

/-- The text after an opening bracket closes as a tag: one character that
opens a tag, and a closing bracket before any other opening one. -/
def closesTag : List Char → Bool
  | c :: rest =>
    opensTag c && (match rest.dropWhile fun d => d != '[' && d != ']' with
      | ']' :: _ => true
      | _ => false)
  | [] => false

/-- Escape the tags of a text; `run` counts the backslashes just read, which
are doubled before a tag. -/
def escapeTags (run : Nat) : List Char → List Char
  | [] => List.replicate run '\\'
  | '\\' :: rest => escapeTags (run + 1) rest
  | '[' :: rest =>
    List.replicate (if closesTag rest then 2 * run + 1 else run) '\\' ++ '[' :: escapeTags 0 rest
  | c :: rest => List.replicate run '\\' ++ c :: escapeTags 0 rest

def endsInLoneBackslash (text : List Char) : Bool :=
  match text.reverse with
  | '\\' :: '\\' :: _ => false
  | '\\' :: _ => true
  | _ => false

/-- The text with its tags escaped, and a backslash at its end doubled. -/
def escapeMarkup (text : String) : String :=
  let escaped := escapeTags 0 text.toList
  String.ofList (if endsInLoneBackslash escaped then escaped ++ ['\\'] else escaped)

end StyleAudit.Text
