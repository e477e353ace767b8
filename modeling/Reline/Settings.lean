/-
  Reline.Settings

  Effective settings from flags and the environment.

  A thread count given as a flag beats one given in the environment, which
  beats the default of the machine. Asking for silence beats asking for detail.
-/

import Reline.Failure
import Reline.Log.Filter
import Reline.Text.Integer

namespace Reline.Settings

/-! ## Threads -/

/-- The environment variable that holds the number of threads. -/
def threadsVariable : String := "CLASS_LINEMAP_THREADS"

/-- Where a thread count comes from. -/
inductive ThreadsSource where
  | flag
  | environment
deriving DecidableEq, Repr

/-- What the source is called. -/
def ThreadsSource.name : ThreadsSource → String
  | flag => "--threads"
  | environment => threadsVariable

/-- Why a thread count cannot be used. -/
inductive ThreadsError where
  /-- The count is zero. -/
  | zero (source : ThreadsSource)
  /-- The environment holds something else. -/
  | notANumber (raw : String) (cause : Text.IntegerError)
deriving DecidableEq, Repr

/-- The failure to report. -/
def ThreadsError.failure : ThreadsError → Failure
  | zero source => .ofText s!"{source.name} must be at least 1"
  | notANumber raw cause =>
    .during s!"{threadsVariable} is not a number: {raw}" (.ofText cause.message)

/-- A thread count from a source, which must not be zero. -/
def positive (source : ThreadsSource) (count : Nat) : Except ThreadsError Nat :=
  if count = 0 then .error (.zero source) else .ok count

/-- The thread count to use, given the flag and the text of the environment variable; `none` leaves
it to the machine. -/
def resolveThreads (flag : Option Nat) (raw : Option String) :
    Except ThreadsError (Option Nat) :=
  match flag, raw with
  | some count, _ => (positive .flag count).map some
  | none, some raw =>
    match Text.parseUnsigned64 (Text.trim raw) with
    | .ok count => (positive .environment count).map some
    | .error cause => .error (.notANumber raw cause)
  | none, none => .ok none

/-! ## Detail of the log -/

/-- The threshold that two flags ask for. -/
def logThreshold (quiet verbose : Bool) : Option Log.Level :=
  if quiet then some .warn
  else if verbose then some .debug
  else none

/-- The environment variable that holds the log filter. -/
def logVariable : String := "RUST_LOG"

/-- What is shown if neither a flag nor the environment says otherwise. -/
def defaultLog : String := "info"

/-- The filter for a run, given the flags and the text of the environment, and the warnings about
that text. -/
def logFilter (quiet verbose : Bool) (raw : Option String) : Log.Filter × List String :=
  let (filter, warnings) := Log.Filter.parse (raw.getD defaultLog)
  match logThreshold quiet verbose with
  | some level => (filter.insert ⟨none, some level⟩, warnings)
  | none => (filter, warnings)

/-! ## Colors of the log -/

/-- The environment variable that says whether the log is shown in colors. -/
def styleVariable : String := "RUST_LOG_STYLE"

/-- The environment variable that asks every program for output without colors. -/
def plainVariable : String := "NO_COLOR"

/-- The environment variable that asks every program for output in colors. -/
def colorVariable : String := "CLICOLOR_FORCE"

/-- What the environment says about colors: the texts of the three variables. -/
structure ColorTexts where
  style : Option String
  plain : Option String
  color : Option String
deriving DecidableEq, Repr

/-- The style of a log that does not go to a terminal. The variable of the log itself decides if its
text is one of two; of the others, which must not be empty, the request for no colors wins. -/
def logStyle (texts : ColorTexts) : Log.Style :=
  let asks (text : Option String) : Bool := text.getD "" ≠ ""
  match texts.style with
  | some "always" => .colored
  | some "never" => .plain
  | _ => if asks texts.color && !asks texts.plain then .colored else .plain

end Reline.Settings
