/-
  Reline.Text.ControlSequence

  Texts without what terminals act on: controls and control sequences.

  A control sequence begins with the escape character; what comes next decides
  how long it is. Blanks are shown, even inside of a sequence that takes no data.
  Such a blank interrupts the sequence: the text behind it is shown up to the next
  control, and there the sequence goes on.
-/

namespace Reline.Text

/-- How far a control sequence has been read. -/
inductive ControlState where
  /-- There is no sequence. -/
  | ground
  /-- The escape character. -/
  | escape
  /-- A short sequence that lacks its last character. -/
  | short
  /-- A sequence with parameters. -/
  | parameters
  /-- The beginning of a sequence that controls a device. -/
  | device
  /-- The parameters of a sequence that controls a device. -/
  | deviceParameters
  /-- What follows those parameters. -/
  | deviceIntermediate
  /-- Data that a terminator ends. -/
  | data
  /-- A command to the system around the terminal. -/
  | command
deriving DecidableEq, Repr

/-! ## Characters -/

/-- A control that shows as a blank. -/
def isBlankControl (c : Char) : Bool :=
  c = '\t' || c = '\n' || c = '\x0c' || c = '\r'

/-- Whether a character outside of sequences is shown. -/
def isShown (c : Char) : Bool :=
  (' ' ≤ c && c ≠ '\x7f') || isBlankControl c

/-- Whether the terminator of data, the byte `0x9C`, is one of the bytes behind the first that
encode a character. -/
def holdsTerminator (c : Char) : Bool :=
  let n := c.toNat
  let isLast (size least : Nat) : Bool := least ≤ n && n / size % 64 = 0x1C
  isLast 1 0x80 || isLast 64 0x800 || isLast 4096 0x10000

/-! ## Sequences -/

namespace ControlState

/-- Whether blanks are shown inside of a sequence. -/
def showsBlanks : ControlState → Bool
  | escape | short | parameters => true
  | _ => false

/-- How far a sequence has been read behind one more character. -/
def next (state : ControlState) (c : Char) : ControlState :=
  if c = '\x18' || c = '\x1a' then ground
  else if c = '\x1b' then escape
  else
    match state with
    | ground => ground
    | escape =>
      if ' ' ≤ c && c ≤ '/' then short
      else if c = 'P' then device
      else if c = '[' then parameters
      else if c = ']' then command
      else if c = 'X' || c = '^' || c = '_' then data
      else if '0' ≤ c && c ≤ '~' then ground
      else escape
    | short => if '0' ≤ c && c ≤ '~' then ground else short
    | parameters => if '@' ≤ c && c ≤ '~' then ground else parameters
    | device =>
      if ' ' ≤ c && c ≤ '/' then deviceIntermediate
      else if '0' ≤ c && c ≤ '?' then deviceParameters
      else if '@' ≤ c && c ≤ '~' then data
      else device
    | deviceParameters =>
      if ' ' ≤ c && c ≤ '/' then deviceIntermediate
      else if '<' ≤ c && c ≤ '~' then data
      else deviceParameters
    | deviceIntermediate => if '0' ≤ c && c ≤ '~' then data else deviceIntermediate
    | data => if holdsTerminator c then ground else data
    | command => if c = '\x07' then ground else command

end ControlState

/-- What is shown of a text that goes on behind `state`. The sequence may be `interrupted`; a
character beyond ASCII that is shown puts an end to it. -/
def shownFrom (interrupted : Bool) (state : ControlState) : List Char → List Char
  | [] => []
  | c :: rest =>
    if (interrupted || state = .ground) && isShown c || state.showsBlanks && isBlankControl c then
      c :: shownFrom true (if c.toNat < 0x80 then state else .ground) rest
    else shownFrom false (state.next c) rest

/-- A text without controls and control sequences. -/
def withoutControls (text : String) : String :=
  String.ofList (shownFrom false .ground text.toList)

end Reline.Text
