/-
  Reline.Log.Filter

  The filter that decides which records of a log are shown.

  A filter is a list of directives, each a level for the targets that begin with
  a name. Of the directives that apply to a target the one with the longest name
  decides. Besides it may have a pattern, which has to occur in the text of a
  record.
-/

import Reline.Log.Record
import Reline.Pattern.Parse
import Reline.Text.Blank
import Reline.Text.ControlSequence

namespace Reline.Log

/-! ## Thresholds -/

/-- Which levels are shown: those up to a level, or none. -/
abbrev Threshold := Option Level

namespace Threshold

/-- Whether a level is shown. -/
def admits (threshold : Threshold) (level : Level) : Bool :=
  match threshold with
  | some most => level.detail ≤ most.detail
  | none => false

/-- The threshold with a name, in any case. -/
def ofName? (name : String) : Option Threshold :=
  match String.ofList (name.toList.map Char.toLower) with
  | "off" => some none
  | "error" => some (some .error)
  | "warn" => some (some .warn)
  | "info" => some (some .info)
  | "debug" => some (some .debug)
  | "trace" => some (some .trace)
  | _ => none

end Threshold

/-! ## Filters -/

/-- A threshold for the targets that begin with a name, or for all. -/
structure Directive where
  /-- What the targets begin with. -/
  name : Option String
  /-- Which levels of them are shown. -/
  threshold : Threshold
deriving DecidableEq, Repr

/-- Whether a directive applies to a target. -/
def Directive.applies (directive : Directive) (target : String) : Bool :=
  match directive.name with
  | some name => name.toList.isPrefixOf target.toList
  | none => true

/-- The number of bytes of a directive's name. -/
def Directive.weight (directive : Directive) : Nat :=
  (directive.name.getD "").utf8ByteSize

/-- Directives, one for each name, and a pattern that has to occur in shown records. -/
structure Filter where
  /-- The directives in the order in which they were given. -/
  directives : List Directive
  /-- A pattern that occurs in the text of every shown record. -/
  phrase : Option Pattern
deriving DecidableEq, Repr

namespace Filter

/-- The filter without directives. -/
def empty : Filter := ⟨[], none⟩

/-- Adds a directive; one with the same name is replaced at its place. -/
def insert (filter : Filter) (directive : Directive) : Filter :=
  if filter.directives.any (·.name = directive.name) then
    { filter with directives := filter.directives.map fun d =>
        if d.name = directive.name then directive else d }
  else
    { filter with directives := filter.directives ++ [directive] }

/-- The directive that decides on a target. -/
def deciding? (filter : Filter) (target : String) : Option Directive :=
  let heavier (best : Option Directive) (d : Directive) : Option Directive :=
    match best with
    | some b => if b.weight ≤ d.weight then some d else best
    | none => some d
  (filter.directives.filter (·.applies target)).foldl heavier none

/-- The threshold for a target. Without any directive only errors are shown; a target to which none
applies is not shown. -/
def threshold (filter : Filter) (target : String) : Threshold :=
  if filter.directives.isEmpty then some .error
  else (filter.deciding? target).elim none Directive.threshold

/-- Whether a record is shown. -/
def shows (filter : Filter) (record : Record) : Bool :=
  (filter.threshold record.source.target).admits record.level
    && filter.phrase.all (·.occursIn record.text)

/-- What a user sees of a message. Without colors a record is also shown without the controls that
its text may hold. -/
def display (filter : Filter) (style : Style) : Message → String
  | .record r =>
    let line := r.shown style ++ "\n"
    if ! filter.shows r then ""
    else
      match style with
      | .plain => Text.withoutControls line
      | .colored => line
  | .notice text => text

/-! ## Reading a filter -/

/-- The directive of one part of a filter's text, or the part that is at fault. A blank part gives
none. -/
def directive? (part : String) : Except String (Option Directive) :=
  let part := Text.trim part
  if part = "" then .ok none
  else
    match part.splitOn "=" with
    | [single] =>
      match Threshold.ofName? single with
      | some threshold => .ok (some ⟨none, threshold⟩)
      | none => .ok (some ⟨some single, some .trace⟩)
    | [name, level] =>
      let level := Text.trim level
      if level = "" then .ok (some ⟨some name, some .trace⟩)
      else
        match Threshold.ofName? level with
        | some threshold => .ok (some ⟨some name, threshold⟩)
        | none => .error level
    | _ => .error part

/-- The warning that a part of a filter's text is ignored. -/
def warning (fault : String) : String := s!"warning: {fault}, ignoring it"

/-- The filter of directives that are separated by commas, and warnings about those that were
ignored. -/
def ofDirectives (directives : String) : Filter × List String :=
  let (filter, warnings) := (directives.splitOn ",").foldl
    (fun (filter, warnings) part =>
      match directive? part with
      | .ok (some directive) => (insert filter directive, warnings)
      | .ok none => (filter, warnings)
      | .error fault => (filter, warning s!"invalid logging spec '{fault}'" :: warnings))
    (empty, [])
  (filter, warnings.reverse)

/-- The filter of a text, and warnings about what of it was ignored. Behind the directives a pattern
may follow, separated by a slash. -/
def parse (text : String) : Filter × List String :=
  match text.splitOn "/" with
  | [directives] => ofDirectives directives
  | [directives, phrase] =>
    let (filter, warnings) := ofDirectives directives
    match Pattern.parse phrase with
    | .ok pattern => ({ filter with phrase := some pattern }, warnings)
    | .error e => (filter, warnings ++ [warning s!"invalid regex filter - {e.message phrase}"])
  | _ => (empty, [warning s!"invalid logging spec '{text}' (too many '/'s)"])

end Filter

end Reline.Log
