/-!
# Glob patterns

In a glob pattern `*` stands for any characters, `?` for one character and
`[...]` for one character of a class; all else stands for itself. A class may
hold ranges and starts with `!` when it lists the characters left out. A range
that runs backwards holds nothing.
-/

namespace StyleAudit.Text

/-- A class of characters: runs of single ones, where the last of each run and
the first of the next are the ends of a range. -/
structure CharClass where
  negated : Bool
  runs : List (List Char)
  deriving DecidableEq, Repr

/-- A part of a glob pattern. -/
inductive GlobPart
  | anything
  | one
  | char (c : Char)
  | oneOf (characters : CharClass)
  deriving DecidableEq, Repr

def inRunRanges (c : Char) : List (List Char) → Bool
  | run :: next :: rest =>
    (match run.getLast?, next.head? with
      | some low, some high => decide (low ≤ c ∧ c ≤ high)
      | _, _ => false) || inRunRanges c (next :: rest)
  | _ => false

def CharClass.contains (characters : CharClass) (c : Char) : Bool :=
  (characters.runs.any (·.contains c) || inRunRanges c characters.runs) != characters.negated

def GlobPart.accepts (part : GlobPart) (c : Char) : Bool :=
  match part with
  | anything | one => true
  | char d => c == d
  | oneOf characters => characters.contains c

/-- Split the inside of a class at the hyphens that form ranges. A hyphen is
one of them when `guarded` characters, at least, come before it. -/
def splitRuns (guarded : Nat) (run : List Char) : List Char → List (List Char)
  | [] => [run.reverse]
  | '-' :: rest =>
    if guarded ≤ run.length then run.reverse :: splitRuns 2 [] rest
    else splitRuns guarded ('-' :: run) rest
  | c :: rest => splitRuns guarded (c :: run) rest

/-- A hyphen at the end of a class stands for itself. -/
def keepFinalHyphen : List (List Char) → List (List Char)
  | [run, []] => [run ++ ['-']]
  | run :: rest => run :: keepFinalHyphen rest
  | [] => []

/-- Remove the ranges that run backwards, from the last one on. -/
def dropBackwardRanges : List (List Char) → List (List Char)
  | [] => []
  | run :: rest =>
    match dropBackwardRanges rest with
    | [] => [run]
    | next :: after =>
      match run.getLast?, next.head? with
      | some low, some high =>
        if high < low then (run.dropLast ++ next.drop 1) :: after else run :: next :: after
      | _, _ => run :: next :: after

def readClass (inside : List Char) : CharClass :=
  let guarded := if inside.head? = some '!' then 2 else 1
  match dropBackwardRanges (keepFinalHyphen (splitRuns guarded [] inside)) with
  | ('!' :: run) :: rest => ⟨true, run :: rest⟩
  | runs => ⟨false, runs⟩

/-- The inside of a class and what follows its closing bracket; a bracket right
at the start, or right after `!`, does not close it. -/
def splitClass? (input : List Char) : Option (List Char × List Char) :=
  let (opening, rest) := match input with
    | '!' :: ']' :: rest => (['!', ']'], rest)
    | '!' :: rest => (['!'], rest)
    | ']' :: rest => ([']'], rest)
    | rest => ([], rest)
  match rest.dropWhile (· != ']') with
  | _ :: after => some (opening ++ rest.takeWhile (· != ']'), after)
  | [] => none

/-- Read at most `fuel` parts of a pattern. -/
def readGlob : (fuel : Nat) → List Char → List GlobPart
  | 0, _ => []
  | _ + 1, [] => []
  | fuel + 1, '*' :: rest => .anything :: readGlob fuel rest
  | fuel + 1, '?' :: rest => .one :: readGlob fuel rest
  | fuel + 1, '[' :: rest =>
    match splitClass? rest with
    | some (inside, after) => .oneOf (readClass inside) :: readGlob fuel after
    | none => .char '[' :: readGlob fuel rest
  | fuel + 1, c :: rest => .char c :: readGlob fuel rest

def globParts (pattern : String) : List GlobPart :=
  readGlob pattern.length pattern.toList

/-- For each place of a text, from its beginning to its end, whether something
holds there or further on. -/
def hereOrLater : List Bool → List Bool
  | [] => []
  | here :: later =>
    match hereOrLater later with
    | [] => [here]
    | next :: rest => (here || next) :: next :: rest

/-- For each place of a text, from its beginning to its end, whether the parts
match all that follows. -/
def matchesFrom : List GlobPart → List Char → List Bool
  | [], text => text.map (fun _ => false) ++ [true]
  | .anything :: parts, text => hereOrLater (matchesFrom parts text)
  | part :: parts, text =>
    List.zipWith (fun c rest => part.accepts c && rest) text ((matchesFrom parts text).drop 1)
      ++ [false]

def partsMatch (parts : List GlobPart) (text : List Char) : Bool :=
  (matchesFrom parts text).headD false

def globMatches (pattern text : String) : Bool :=
  partsMatch (globParts pattern) text.toList

end StyleAudit.Text
