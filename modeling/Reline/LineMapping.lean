/-
  Reline.LineMapping

  Sparse tables from lines of the compiled source to lines of the decompiled
  text.

  A line that the table lists goes to its target. A line between listed ones
  goes to the target of the next listed line, because a decompiled statement
  stands at or after the first line it covers. A line behind the last listed
  one stays.
-/

import Reline.OrderedTable

namespace Reline

/-- How a line was resolved, with the line it goes to. -/
inductive Resolution where
  /-- The table lists the line. -/
  | exact (line : UInt16)
  /-- The table lists no such line; the least greater line it lists decides. -/
  | ceiling (line : UInt16)
  /-- The table lists neither the line nor a greater one. -/
  | unchanged (line : UInt16)
deriving DecidableEq, Repr

/-- The line that a resolution leads to. -/
def Resolution.line : Resolution → UInt16
  | exact line | ceiling line | unchanged line => line

/-- Why a flat list of numbers is no line mapping. -/
inductive MappingError where
  /-- The list does not split into pairs. -/
  | oddLength (length : Nat)
  /-- The number at a position of the list is no line. -/
  | lineOutOfRange (position : Nat) (value : Int)
deriving DecidableEq, Repr

/-- The text of the error. -/
def MappingError.message : MappingError → String
  | oddLength length =>
    s!"line mapping has odd length {length}; expected (original, target) pairs"
  | lineOutOfRange position value =>
    s!"line mapping value {value} at position {position} is not a valid line number"

/-- A table from compiled lines to target lines. -/
structure LineMapping where
  /-- The pairs in ascending order of the compiled lines. -/
  table : OrderedTable UInt16 UInt16
deriving DecidableEq

namespace LineMapping

/-! ## Building -/

/-- The table of a list of pairs; of several with one compiled line the last counts. -/
def ofPairs (pairs : List (UInt16 × UInt16)) : LineMapping :=
  ⟨OrderedTable.ofList pairs⟩

/-- The line that a number of a flat list stands for. -/
def toLine (position : Nat) (value : Int) : Except MappingError UInt16 :=
  if 0 ≤ value ∧ value < 65536 then .ok (UInt16.ofNat value.toNat)
  else .error (.lineOutOfRange position value)

/-- The pairs of a flat list that begins at a position, put before `found` in reverse. -/
def pairsOnto (found : List (UInt16 × UInt16)) (position : Nat) :
    List Int → Except MappingError (List (UInt16 × UInt16))
  | line :: target :: rest => do
    let pair := (← toLine position line, ← toLine (position + 1) target)
    pairsOnto (pair :: found) (position + 2) rest
  | _ => .ok found

/-- The table of a flat list `line, target, line, target, …`. -/
def ofFlat (flat : List Int) : Except MappingError LineMapping :=
  if flat.length % 2 ≠ 0 then
    .error (.oddLength flat.length)
  else do
    return ofPairs (← pairsOnto [] 0 flat).reverse

/-! ## Resolving -/

/-- The number of lines that the table lists. -/
def size (m : LineMapping) : Nat := m.table.size

/-- Whether the table lists no line. -/
def isEmpty (m : LineMapping) : Bool := m.table.isEmpty

/-- Where a line goes, and why. -/
def resolve (m : LineMapping) (line : UInt16) : Resolution :=
  match m.table.get? line with
  | some target => .exact target
  | none =>
    match m.table.above? line with
    | some (_, target) => .ceiling target
    | none => .unchanged line

/-- Where a line goes. -/
def mapLine (m : LineMapping) (line : UInt16) : UInt16 :=
  (m.resolve line).line

end LineMapping

end Reline
