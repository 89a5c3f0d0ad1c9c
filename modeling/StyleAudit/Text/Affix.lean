/-!
# Beginnings and ends of texts

Tests on the characters at the ends of a text, and the parts of a name around
its points and slashes.
-/

namespace StyleAudit.Text

def begins (text start : String) : Bool :=
  start.toList.isPrefixOf text.toList

def ends (text finish : String) : Bool :=
  finish.toList.isSuffixOf text.toList

/-- What is before the last mark and what is after it; without a mark there is
nothing before. -/
def splitLast (mark : Char) (characters : List Char) : List Char × List Char :=
  let backwards := characters.reverse
  match backwards.dropWhile (· != mark) with
  | [] => ([], characters)
  | _ :: before => (before.reverse, (backwards.takeWhile (· != mark)).reverse)

def lastSegment (name : String) : String :=
  String.ofList (splitLast '.' name.toList).2

def segmentCount (name : String) : Nat :=
  name.toList.count '.' + 1

end StyleAudit.Text
