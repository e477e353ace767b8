/-
  Reline.Log.Record

  Log records, and how they are shown.

  Besides records there are notices, which are always shown as they are. A
  terminal shows records in colors, by codes in front of a text and behind it.
-/

namespace Reline.Log

/-! ## Records -/

/-- How important a record is. -/
inductive Level where
  | error
  | warn
  | info
  | debug
  | trace
deriving DecidableEq, Repr

namespace Level

/-- The name of a level. -/
def name : Level → String
  | error => "ERROR"
  | warn => "WARN"
  | info => "INFO"
  | debug => "DEBUG"
  | trace => "TRACE"

/-- The code that colors the name of a level. -/
def colorCode : Level → String
  | error => "\x1b[1m\x1b[31m"
  | warn => "\x1b[33m"
  | info => "\x1b[32m"
  | debug => "\x1b[34m"
  | trace => "\x1b[36m"

/-- How far a level goes into detail, from one on. -/
def detail : Level → Nat
  | error => 1
  | warn => 2
  | info => 3
  | debug => 4
  | trace => 5

end Level

/-- The part of the program that a record comes from. -/
inductive Source where
  | archive
  | batch
  | saver
  | sink
deriving DecidableEq, Repr

/-- The target under which a part of the program logs. -/
def Source.target : Source → String
  | archive => "class_linemap::archive"
  | batch => "class_linemap::batch"
  | saver => "class_linemap::hook"
  | sink => "class_linemap::sink"

/-- One log record. -/
structure Record where
  /-- How important it is. -/
  level : Level
  /-- Where it comes from. -/
  source : Source
  /-- What happened. -/
  text : String
deriving DecidableEq, Repr

/-- The record as one line of a list of records. -/
def Record.line (record : Record) : String :=
  s!"{record.level.name} {record.source.target}: {record.text}"

/-- What a run tells its user besides its result. -/
inductive Message where
  /-- A record, which a filter may hide. -/
  | record (record : Record)
  /-- A text that is always shown, without a line end. -/
  | notice (text : String)
deriving DecidableEq, Repr

/-- The record of a message, unless the message is a notice. -/
def Message.record? : Message → Option Record
  | .record r => some r
  | .notice _ => none

/-! ## Showing records -/

/-- Whether records are shown in colors. -/
inductive Style where
  | plain
  | colored
deriving DecidableEq, Repr

namespace Style

/-- The code that ends a color. -/
def resetCode : String := "\x1b[0m"

/-- The code of the color in which brackets are shown. -/
def bracketCode : String := "\x1b[90m"

/-- A text in the color of a code. -/
def paint (style : Style) (code text : String) : String :=
  match style with
  | plain => text
  | colored => code ++ text ++ resetCode

end Style

/-- The record as it is shown to a user: level names are padded to one width, and all lines of the
text but the first are indented. -/
def Record.shown (record : Record) (style : Style) : String :=
  let name := record.level.name
  let level := name ++ String.ofList (List.replicate (5 - name.length) ' ')
  let text := "\n    ".intercalate (record.text.splitOn "\n")
  style.paint Style.bracketCode "[" ++ style.paint record.level.colorCode level ++ " "
    ++ record.source.target ++ style.paint Style.bracketCode "]" ++ " " ++ text

end Reline.Log
