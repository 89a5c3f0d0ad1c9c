import StyleAudit.CommandLine.Count
import StyleAudit.Report.Violation

/-!
# Arguments

`Command.ofArguments` reads the arguments of the command line. Options may
stand before, between and after the other arguments of a command, their values
follow or are attached by an equals sign, the last of several values counts,
and two hyphens end the options.
-/

namespace StyleAudit

/-- How a report is written. -/
inductive OutputFormat
  | terminal
  | json
  deriving DecidableEq, Repr

/-- What to check and how. -/
structure CheckRequest where
  paths : List String
  format : OutputFormat
  /-- The least severity that fails a run. -/
  failOn : Severity
  /-- The number of workers, unless it is left to the configuration. -/
  workers : Option Nat
  deriving DecidableEq, Repr

/-- What the user asks for. -/
inductive Command
  | check (request : CheckRequest)
  | rules
  | explain (id : String)
  | help
  deriving DecidableEq, Repr

/-- Why arguments cannot be understood. -/
inductive UsageError
  | missingCommand
  | unknownCommand (name : String)
  | unknownOption (name : String)
  | missingValue (option : String)
  | unexpectedValue (option : String)
  | badValue (option value : String)
  | missingArgument (name : String)
  | extraArgument (value : String)
  deriving DecidableEq, Repr

def UsageError.message : UsageError → String
  | missingCommand => "a command is missing"
  | unknownCommand name => s!"no such command: {name}"
  | unknownOption name => s!"no such option: {name}"
  | missingValue option => s!"a value is missing for {option}"
  | unexpectedValue option => s!"{option} takes no value"
  | badValue option value => s!"bad value for {option}: {value}"
  | missingArgument name => s!"an argument is missing: {name}"
  | extraArgument value => s!"unexpected argument: {value}"

/-- The arguments of a command, sorted out. -/
structure Arguments where
  /-- The values of options, the last first. -/
  values : List (String × String)
  help : Bool
  positional : List String
  deriving DecidableEq, Repr

namespace Arguments

def helpOption : String := "--help"

/-- The argument is an option and not a value of its own. -/
def isOption (argument : String) : Bool :=
  match argument.toList with
  | '-' :: _ :: _ => true
  | _ => false

/-- The name of an option and the value attached to it. -/
def splitAttached (argument : String) : String × Option String :=
  let characters := argument.toList
  let name := String.ofList (characters.takeWhile (· != '='))
  match characters.dropWhile (· != '=') with
  | _ :: value => (name, some (String.ofList value))
  | [] => (name, none)

/-- Sort out the arguments of a command that has the given options. -/
def sort (known : List String) (done : Arguments) : List String → Except UsageError Arguments
  | [] => .ok { done with positional := done.positional.reverse }
  | "--" :: rest => .ok { done with positional := done.positional.reverse ++ rest }
  | argument :: rest =>
    if !isOption argument then
      sort known { done with positional := argument :: done.positional } rest
    else
      match splitAttached argument with
      | (name, attached) =>
        if name = helpOption then
          if attached.isSome then .error (.unexpectedValue name)
          else sort known { done with help := true } rest
        else if !known.contains name then .error (.unknownOption name)
        else
          match attached, rest with
          | some value, rest =>
            sort known { done with values := (name, value) :: done.values } rest
          | none, value :: rest =>
            sort known { done with values := (name, value) :: done.values } rest
          | none, [] => .error (.missingValue name)

def ofList (known arguments : List String) : Except UsageError Arguments :=
  sort known ⟨[], false, []⟩ arguments

def option {α : Type} (arguments : Arguments) (name : String) (default : α)
    (reader : String → Option α) : Except UsageError α :=
  match arguments.values.lookup name with
  | none => .ok default
  | some value =>
    match reader value with
    | some found => .ok found
    | none => .error (.badValue name value)

end Arguments

namespace Command

def readFormat? : String → Option OutputFormat
  | "terminal" => some .terminal
  | "json" => some .json
  | _ => none

def readThreshold? : String → Option Severity
  | "violation" => some .violation
  | "advisory" => some .advisory
  | _ => none

def readWorkers? (value : String) : Option (Option Nat) :=
  (Count.read? value).map some

def checkRequest (arguments : Arguments) : Except UsageError CheckRequest := do
  if arguments.positional.isEmpty then
    throw (.missingArgument "paths")
  return {
    paths := arguments.positional
    format := ← arguments.option "--format" .terminal readFormat?
    failOn := ← arguments.option "--fail-on" .violation readThreshold?
    workers := ← arguments.option "--workers" none readWorkers? }

def ofName (name : String) (given : List String) : Except UsageError Command :=
  match name with
  | "check" => do
    let arguments ← Arguments.ofList ["--format", "--fail-on", "--workers"] given
    if arguments.help then return .help
    return .check (← checkRequest arguments)
  | "rules" => do
    let arguments ← Arguments.ofList [] given
    if arguments.help then return .help
    match arguments.positional with
    | [] => return .rules
    | extra :: _ => throw (.extraArgument extra)
  | "explain" => do
    let arguments ← Arguments.ofList [] given
    if arguments.help then return .help
    match arguments.positional with
    | [] => throw (.missingArgument "rule id")
    | [id] => return .explain id
    | _ :: extra :: _ => throw (.extraArgument extra)
  | name => throw (.unknownCommand name)

/-- Read the arguments before the name of a command; `help` tells that help
was asked for. -/
def afterOptions (help : Bool) : List String → Except UsageError Command
  | [] => if help then .ok .help else .error .missingCommand
  | "--" :: [] => if help then .ok .help else .error .missingCommand
  | "--" :: name :: rest => if help then .ok .help else ofName name rest
  | argument :: rest =>
    if Arguments.isOption argument then
      match Arguments.splitAttached argument with
      | (name, attached) =>
        if name ≠ Arguments.helpOption then .error (.unknownOption name)
        else if attached.isSome then .error (.unexpectedValue name)
        else afterOptions true rest
    else if help then .ok .help else ofName argument rest

def ofArguments (arguments : List String) : Except UsageError Command :=
  afterOptions false arguments

end Command
end StyleAudit
