/-
  Reline.CommandLine.Command

  The commands of the program and their arguments.
-/

import Reline.CommandLine.Options

namespace Reline.CommandLine

/-! ## Commands -/

/-- Which class to list. -/
inductive ClassSource where
  /-- A class file; an archive that is named as well is not used. -/
  | file (path : String) (archive : Option String)
  /-- The class of a name in an archive. -/
  | member (archive : String) (name : String)
deriving DecidableEq, Repr

/-- What the program is asked to do. -/
inductive Command where
  /-- Save decompiled sources and patch the lines of the classes in an archive. -/
  | apply (input units output : String) (threads : Option Nat)
  /-- Remap a single class file, in place if no output is named. -/
  | remap (classFile : String) (mapping : List Int) (output : Option String)
  /-- Print the line tables of a class. -/
  | lines (source : ClassSource)
deriving DecidableEq, Repr

/-- A command with the switches that go with any command. -/
structure Invocation where
  /-- The command. -/
  command : Command
  /-- Whether more of the log is wanted. -/
  verbose : Bool
  /-- Whether less of the log is wanted. -/
  quiet : Bool
deriving DecidableEq, Repr

/-! ## What each level knows -/

/-- The options that every level knows. -/
def commonOptions : List NamedOption :=
  [⟨"verbose", none, .switch⟩, ⟨"quiet", none, .switch⟩, ⟨"help", some 'h', .help⟩]

/-- The command that shows the help of another. -/
def helpCommand : String := "help"

/-- The level in front of the command. -/
def topLevel : Level :=
  { options := commonOptions, commands := ["apply", "remap", "lines", helpCommand] }

/-- The level behind `apply`. -/
def applyLevel : Level where
  options := [⟨"input", none, .path⟩, ⟨"units", none, .path⟩, ⟨"output", none, .path⟩,
    ⟨"threads", none, .count⟩] ++ commonOptions
  commands := []

/-- The level behind `remap`. -/
def remapLevel : Level where
  options := [⟨"class", none, .path⟩, ⟨"mapping", none, .integers⟩,
    ⟨"output", some 'o', .path⟩] ++ commonOptions
  commands := []

/-- The level behind `lines`. -/
def linesLevel : Level where
  options := [⟨"jar", none, .path⟩, ⟨"class", none, .text⟩, ⟨"class-file", none, .path⟩]
    ++ commonOptions
  commands := []

/-! ## Reading -/

/-- The text of an option that must be given. -/
def required (progress : Progress) (long : String) : Except UsageError String :=
  match progress.text? long with
  | some value => .ok value
  | none => .error .missingRequired

/-- The `apply` command of its options. -/
def applyCommand (progress : Progress) : Except UsageError Command := do
  return .apply (← required progress "input") (← required progress "units")
    (← required progress "output") (progress.count? "threads")

/-- The `remap` command of its options. -/
def remapCommand (progress : Progress) : Except UsageError Command := do
  return .remap (← required progress "class") (progress.integers "mapping")
    (progress.text? "output")

/-- The `lines` command of its options: either a class file or the name of a class in an archive. -/
def linesCommand (progress : Progress) : Except UsageError Command :=
  let archive := progress.text? "jar"
  match progress.text? "class-file", progress.text? "class" with
  | some _, some _ => .error .conflict
  | some path, none => .ok (.lines (.file path archive))
  | none, some name =>
    match archive with
    | some archive => .ok (.lines (.member archive name))
    | none => .error .missingRequired
  | none, none => .error .missingRequired

/-- The fault of asking for help on commands: help itself if they are known. No command has commands
of its own. -/
def helpOn : List String → UsageError
  | [] => .help
  | [name] => if topLevel.commands.contains name then .help else .unknownCommand
  | _ => .unknownCommand

/-- Reads the arguments behind the name of a command. -/
def readCommand (name : String) (args : List String) :
    Except UsageError (Progress × Command) := do
  match name with
  | "apply" =>
    let (progress, _) ← applyLevel.read .start args
    return (progress, ← applyCommand progress)
  | "remap" =>
    let (progress, _) ← remapLevel.read .start args
    return (progress, ← remapCommand progress)
  | "lines" =>
    let (progress, _) ← linesLevel.read .start args
    return (progress, ← linesCommand progress)
  | _ => throw (helpOn args)

/-- Reads the arguments of the program. -/
def Invocation.parse (args : List String) : Except UsageError Invocation := do
  match ← topLevel.read .start args with
  | (front, some (name, rest)) =>
    let (back, command) ← readCommand name rest
    return {
      command
      verbose := front.has "verbose" || back.has "verbose"
      quiet := front.has "quiet" || back.has "quiet" }
  | (front, none) => throw (if front.found.isEmpty then .nothingGiven else .missingCommand)

end Reline.CommandLine
