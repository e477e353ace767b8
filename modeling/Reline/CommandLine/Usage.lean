/-
  Reline.CommandLine.Usage

  What is said to a user whose arguments are not accepted.
-/

import Reline.CommandLine.Command

namespace Reline.CommandLine

/-- The text of a fault. -/
def UsageError.message : UsageError → String
  | help => "help was asked for"
  | nothingGiven => "no command is given"
  | missingCommand => "a command is missing"
  | unknownCommand => "there is no such command"
  | unknownArgument => "an argument is not known"
  | missingRequired => "a required option is missing"
  | conflict => "an option is repeated or excluded by another"
  | missingValue => "an option has no value"
  | badValue => "the value of an option cannot be read"
  | excessValue => "an option takes no value"

/-- How the program is called. -/
def usage : List String :=
  ["Point class file line numbers at lines of decompiled sources",
    "",
    "Usage: reline [--verbose] [--quiet] COMMAND",
    "",
    "Commands:",
    "  apply --input JAR --units FILE --output ZIP [--threads N]",
    "      Save decompiled sources and patch line numbers in the input archive",
    "  remap --class FILE [--mapping LINE,TARGET,...] [-o FILE]",
    "      Remap a single class file",
    "  lines --class-file FILE | --jar JAR --class NAME",
    "      Print the line tables of a class",
    "  help [COMMAND]",
    "      Print this text"]

/-- What is printed for a fault: how the program is called, if help was asked for, or else what is
wrong and how the program is called. -/
def UsageError.report (fault : UsageError) : List String :=
  match fault with
  | help => usage
  | _ => ("error: " ++ fault.message) :: "" :: usage

end Reline.CommandLine
