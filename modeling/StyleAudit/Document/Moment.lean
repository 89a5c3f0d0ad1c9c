import StyleAudit.Text.Digit

/-!
# Dates and times

A `Moment` is a day of the calendar, a time of the clock, or both together,
which may then say how far the clock is ahead of universal time.

* `Moment.read?` reads one at the start of a text: `1979-05-27`, `07:32:00.5`,
  or `1979-05-27T07:32:00-08:00`.
* `Moment.display` is its text in messages.
-/

namespace StyleAudit

/-- A day of the calendar. -/
structure Day where
  year : Nat
  month : Nat
  day : Nat
  deriving DecidableEq, Repr

/-- A time of the clock. -/
structure ClockTime where
  hour : Nat
  minute : Nat
  second : Nat
  microsecond : Nat
  deriving DecidableEq, Repr

/-- A day, a time, or both. -/
inductive Moment
  | day (day : Day)
  | time (time : ClockTime)
  /-- A time on a day; the offset from universal time is counted in minutes. -/
  | dayTime (day : Day) (time : ClockTime) (offset : Option Int)
  deriving DecidableEq, Repr

namespace Moment

/-! ## Reading -/

/-- A number of exactly so many digits that lies between two bounds. -/
def readFixed? (size low high : Nat) (input : List Char) : Option (Nat × List Char) :=
  let digits := input.take size
  if digits.length = size ∧ digits.all Char.isDigit then
    ((Text.readDecimals? digits).filter fun value => decide (low ≤ value ∧ value ≤ high)).map
      fun value => (value, input.drop size)
  else none

/-- The text after a character that starts it. -/
def after? (mark : Char) : List Char → Option (List Char)
  | c :: rest => if c = mark then some rest else none
  | [] => none

def isLeapYear (year : Nat) : Bool :=
  year % 4 == 0 && (year % 100 != 0 || year % 400 == 0)

def daysIn (year month : Nat) : Nat :=
  match month with
  | 2 => if isLeapYear year then 29 else 28
  | 4 | 6 | 9 | 11 => 30
  | _ => 31

def readDay? (input : List Char) : Option (Day × List Char) := do
  let (year, rest) ← readFixed? 4 1 9999 input
  let (month, rest) ← readFixed? 2 1 12 (← after? '-' rest)
  let (number, rest) ← readFixed? 2 1 (daysIn year month) (← after? '-' rest)
  return (⟨year, month, number⟩, rest)

def readMinutes? (input : List Char) : Option (Nat × Nat × List Char) := do
  let (hour, rest) ← readFixed? 2 0 23 input
  let (minute, rest) ← readFixed? 2 0 59 (← after? ':' rest)
  return (hour, minute, rest)

/-- The microseconds that a point and digits write; digits beyond the sixth do
not count. -/
def readMicroseconds (input : List Char) : Nat × List Char :=
  match input with
  | '.' :: rest =>
    let digits := (rest.takeWhile Char.isDigit).take 6
    if digits.isEmpty then (0, input)
    else ((Text.readDecimals? (digits.rightpad 6 '0')).getD 0, rest.dropWhile Char.isDigit)
  | _ => (0, input)

def readTime? (input : List Char) : Option (ClockTime × List Char) := do
  let (hour, minute, rest) ← readMinutes? input
  let (second, rest) ← readFixed? 2 0 59 (← after? ':' rest)
  let (microsecond, rest) := readMicroseconds rest
  return (⟨hour, minute, second, microsecond⟩, rest)

def readOffset (input : List Char) : Option Int × List Char :=
  match input with
  | 'Z' :: rest | 'z' :: rest => (some 0, rest)
  | '+' :: unsigned =>
    match readMinutes? unsigned with
    | some (hour, minute, rest) => (some ((60 * hour + minute : Nat) : Int), rest)
    | none => (none, input)
  | '-' :: unsigned =>
    match readMinutes? unsigned with
    | some (hour, minute, rest) => (some (-((60 * hour + minute : Nat) : Int)), rest)
    | none => (none, input)
  | _ => (none, input)

/-- The text between a day and a time on it. -/
def isBetween (c : Char) : Bool := c == 'T' || c == 't' || c == ' '

/-- What comes after a day: a time on it, or else nothing that belongs to
it. -/
def readOnDay (d : Day) (input : List Char) : Moment × List Char :=
  match input with
  | between :: rest =>
    if isBetween between then
      match readTime? rest with
      | some (t, rest) =>
        let (offset, rest) := readOffset rest
        (dayTime d t offset, rest)
      | none => (day d, input)
    else (day d, input)
  | [] => (day d, [])

def read? (input : List Char) : Option (Moment × List Char) :=
  match readDay? input with
  | some (d, rest) => some (readOnDay d rest)
  | none => (readTime? input).map fun (t, rest) => (time t, rest)

/-! ## Display -/

def typeWord : Moment → String
  | day _ => "datetime.date"
  | time _ => "datetime.time"
  | dayTime .. => "datetime.datetime"

def dayNumbers (d : Day) : List Nat := [d.year, d.month, d.day]

/-- The numbers of a time; zeros at the end are left out as far as the
seconds. -/
def timeNumbers (t : ClockTime) : List Nat :=
  [t.hour, t.minute] ++
    if t.microsecond ≠ 0 then [t.second, t.microsecond]
    else if t.second ≠ 0 then [t.second]
    else []

/-- An offset as it stands after the numbers; one before universal time is
counted from the day before. -/
def offsetText (minutes : Int) : String :=
  let zone :=
    if minutes = 0 then ".utc"
    else if 0 < minutes then s!"(datetime.timedelta(seconds={60 * minutes}))"
    else s!"(datetime.timedelta(days=-1, seconds={86400 + 60 * minutes}))"
  ", tzinfo=datetime.timezone" ++ zone

def display (moment : Moment) : String :=
  let (numbers, more) := match moment with
    | day d => (dayNumbers d, "")
    | time t => (timeNumbers t, "")
    | dayTime d t offset => (dayNumbers d ++ timeNumbers t, (offset.map offsetText).getD "")
  moment.typeWord ++ "(" ++ String.intercalate ", " (numbers.map toString) ++ more ++ ")"

end Moment
end StyleAudit
