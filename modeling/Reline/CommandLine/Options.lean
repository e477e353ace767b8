/-
  Reline.CommandLine.Options

  Reading options from arguments, for any set of options.

  Arguments are read from left to right. An option's value is checked when the
  next option comes or the arguments end, not when the value is read, so of two
  faults the one noticed first is reported: a stray argument behind a bad value
  is noticed before the bad value.
-/

import Reline.Text.Integer

namespace Reline.CommandLine

/-! ## Faults -/

/-- Why arguments are not accepted. -/
inductive UsageError where
  /-- Help was asked for. -/
  | help
  /-- There is neither a command nor an option. -/
  | nothingGiven
  /-- There are options but no command. -/
  | missingCommand
  /-- An argument stands where a command is expected, but is none. -/
  | unknownCommand
  /-- An option is unknown, or an argument stands where none is expected. -/
  | unknownArgument
  /-- A required option is missing. -/
  | missingRequired
  /-- An option is repeated, or excluded by another. -/
  | conflict
  /-- An option has no value, or an empty one where that is not possible. -/
  | missingValue
  /-- A value cannot be read. -/
  | badValue
  /-- An option without a value is given one. -/
  | excessValue
deriving DecidableEq, Repr

/-- The exit status of a program that reports the fault. -/
def UsageError.exitStatus : UsageError → Nat
  | .help => 0
  | _ => 2

/-! ## Options and their values -/

/-- What an option stands for. -/
inductive ValueKind where
  /-- A switch without a value. -/
  | switch
  /-- The switch that asks for help. -/
  | help
  /-- A path, which is not empty. -/
  | path
  /-- Any text. -/
  | text
  /-- A number that is not negative. -/
  | count
  /-- Integers separated by commas; the option may be repeated, and anything that follows it is
  its value. -/
  | integers
deriving DecidableEq, Repr

/-- The value of an option. -/
inductive Value where
  | on
  | text (value : String)
  | count (value : Nat)
  | integers (value : List Int)
deriving DecidableEq, Repr

/-- An option that a command knows. -/
structure NamedOption where
  /-- The name behind two hyphens. -/
  long : String
  /-- The letter behind one hyphen. -/
  short : Option Char
  /-- What it stands for. -/
  kind : ValueKind
deriving DecidableEq, Repr

/-- Whether an option is written without a value. -/
def NamedOption.isSwitch (o : NamedOption) : Bool :=
  o.kind = .switch || o.kind = .help

/-- The value that a text spells for an option. -/
def NamedOption.read (o : NamedOption) (raw : String) : Except UsageError Value :=
  match o.kind with
  | .switch | .help => .ok .on
  | .path => if raw = "" then .error .missingValue else .ok (.text raw)
  | .text => .ok (.text raw)
  | .count =>
    match Text.parseUnsigned64 raw with
    | .ok n => .ok (.count n)
    | .error _ => .error .badValue
  | .integers =>
    match (raw.splitOn ",").mapM Text.parseSigned32 with
    | .ok ns => .ok (.integers ns)
    | .error _ => .error .badValue

/-! ## Reading -/

/-- The options and commands that are known at one level of the command line. -/
structure Level where
  /-- The options. -/
  options : List NamedOption
  /-- The names of the commands. -/
  commands : List String
deriving Repr

/-- What has been read of a level. -/
structure Progress where
  /-- The options found so far with their values, the latest first. -/
  found : List (String × Value)
  /-- The option whose value is not checked yet, with its text if that has been read. -/
  pending : Option (NamedOption × Option String)
  /-- Whether all further arguments are plain. -/
  plain : Bool
deriving Repr

namespace Progress

/-- Nothing has been read. -/
def start : Progress := ⟨[], none, false⟩

/-- The option that waits for its value. -/
def awaiting (progress : Progress) : Option NamedOption :=
  match progress.pending with
  | some (o, none) => some o
  | _ => none

/-- Adds an option with the text of its value. Only lists of integers may be repeated. -/
def add (progress : Progress) (o : NamedOption) (raw : String) : Except UsageError Progress :=
  if o.kind = .help then .error .help
  else if o.kind ≠ .integers && progress.found.any (·.1 = o.long) then .error .conflict
  else do
    return { progress with found := (o.long, ← o.read raw) :: progress.found }

/-- Checks the value that is pending. -/
def settle (progress : Progress) : Except UsageError Progress :=
  match progress.pending with
  | none => .ok progress
  | some (_, none) => .error .missingValue
  | some (o, some raw) => { progress with pending := none }.add o raw

/-- Adds an option together with its value. -/
def take (progress : Progress) (o : NamedOption) (raw : String) : Except UsageError Progress := do
  (← progress.settle).add o raw

/-- Adds an option whose value follows. -/
def await (progress : Progress) (o : NamedOption) : Except UsageError Progress := do
  return { ← progress.settle with pending := some (o, none) }

end Progress

namespace Level

/-- Reads an option written with its long name, given the text behind the two hyphens. -/
def readLong (level : Level) (progress : Progress) (body : String) :
    Except UsageError Progress :=
  let name := String.ofList (body.toList.takeWhile (· ≠ '='))
  let attached : Option String :=
    match body.toList.dropWhile (· ≠ '=') with
    | _ :: value => some (String.ofList value)
    | [] => none
  match level.options.find? (·.long = name) with
  | none => .error .unknownArgument
  | some o =>
    match o.isSwitch, attached with
    | true, none => progress.take o ""
    | true, some _ => .error .excessValue
    | false, some value => progress.take o value
    | false, none => progress.await o

/-- Reads options written with their letters behind one hyphen; a value may be attached, with or
without an equals sign. -/
def readShort (level : Level) (progress : Progress) : List Char → Except UsageError Progress
  | [] => .ok progress
  | letter :: rest =>
    match level.options.find? (·.short = some letter) with
    | none => .error .unknownArgument
    | some o =>
      if o.isSwitch then do
        level.readShort (← progress.take o "") rest
      else
        match rest with
        | [] => progress.await o
        | '=' :: value => progress.take o (String.ofList value)
        | value => progress.take o (String.ofList value)

/-- The fault of an argument that is neither an option nor a value. -/
def stray (level : Level) (progress : Progress) (arg : String) : UsageError :=
  if level.commands.isEmpty then .unknownArgument
  else if progress.plain && level.commands.contains arg then .unknownArgument
  else .unknownCommand

/-- Reads one argument that is no command. -/
def readArgument (level : Level) (progress : Progress) (arg : String) :
    Except UsageError Progress :=
  if progress.plain then .error (level.stray progress arg)
  else
    let value (o : NamedOption) : Except UsageError Progress :=
      .ok { progress with pending := some (o, some arg) }
    let other : Except UsageError Progress :=
      match progress.awaiting with
      | some o => value o
      | none => .error (level.stray progress arg)
    match progress.awaiting, arg.toList with
    | some ⟨long, short, .integers⟩, _ => value ⟨long, short, .integers⟩
    | _, ['-', '-'] => .ok { progress with plain := true }
    | _, '-' :: '-' :: body => level.readLong progress (String.ofList body)
    | _, '-' :: letter :: letters => level.readShort progress (letter :: letters)
    | _, _ => other

/-- Reads arguments up to a command, giving what was found, and the command with the arguments
behind it. -/
def read (level : Level) (progress : Progress) :
    List String → Except UsageError (Progress × Option (String × List String))
  | [] => do
    return (← progress.settle, none)
  | arg :: rest =>
    if !progress.plain && progress.awaiting.isNone && level.commands.contains arg then
      .ok (progress, some (arg, rest))
    else do
      level.read (← level.readArgument progress arg) rest

end Level

namespace Progress

/-- Whether a switch was given. -/
def has (progress : Progress) (long : String) : Bool :=
  progress.found.any (·.1 = long)

/-- The text of an option. -/
def text? (progress : Progress) (long : String) : Option String :=
  progress.found.findSome? fun
    | (name, .text value) => if name = long then some value else none
    | _ => none

/-- The number of an option. -/
def count? (progress : Progress) (long : String) : Option Nat :=
  progress.found.findSome? fun
    | (name, .count value) => if name = long then some value else none
    | _ => none

/-- The integers of all occurrences of an option, in order. -/
def integers (progress : Progress) (long : String) : List Int :=
  progress.found.reverse.flatMap fun
    | (name, .integers value) => if name = long then value else []
    | _ => []

end Progress

end Reline.CommandLine
