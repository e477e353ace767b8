/-
  Reline.Zip.Deflate.Blocks

  The division of data into tokens, and of the tokens into blocks.

  An occurrence that was found is held back for a byte: if a longer one begins
  at the next byte, the byte in front stands for itself. A block ends when its
  tokens take much room, or when they do not get smaller than the data.
-/

import Reline.Zip.Deflate.Search
import Reline.Zip.Deflate.Token

namespace Reline.Zip.Deflate

/-- The tokens of a part of the data. -/
structure Block where
  /-- The tokens. -/
  tokens : Array Token
  /-- The place of the data they stand for. -/
  start : Nat
  /-- How many bytes they stand for. -/
  size : Nat
  /-- Whether all of these bytes are still at hand when the block is written. -/
  inWindow : Bool
deriving Repr

/-- How far data has been divided. -/
structure Division where
  /-- The place of the next byte. -/
  place : Nat
  /-- The occurrence that is held back; it begins at the byte in front of the place. -/
  held : Option Occurrence
  /-- The finished blocks. -/
  blocks : Array Block
  /-- The tokens of the current block. -/
  tokens : Array Token
  /-- Where the current block begins. -/
  start : Nat
  /-- How many bytes its tokens stand for. -/
  size : Nat
  /-- The room that its tokens take: a byte for a literal, three for a reference. -/
  room : Nat

namespace Division

/-- Nothing has been divided. -/
def beginning : Division := ⟨0, none, #[], #[], 0, 0, 0⟩

/-- Adds a token to the current block. -/
def push (division : Division) (token : Token) : Division :=
  let room := match token with
    | .literal _ => 1
    | .reference .. => 3
  { division with
    tokens := division.tokens.push token
    size := division.size + token.length
    room := division.room + room }

/-- How many bytes a search looks at: those that are read ahead. -/
def ahead (data : Buffer) (place : Nat) : Nat := min maxLength (data.size - place)

/-- An occurrence that makes a good reference: three bytes from far back do not, nor does one that
goes back to where the window was filled anew. -/
def isUseful (place : Nat) (found : Occurrence) : Bool :=
  !(found.length = 3 && 8192 ≤ found.distance) && place % windowSize ≠ found.distance

/-- The length from which on an occurrence is not held back. -/
def goodLength : Nat := 128

/-- Goes on behind a place with an occurrence that begins there, if there is one. -/
def take (data : Buffer) (found : Option Occurrence) (division : Division) : Division :=
  match found with
  | some found =>
    if goodLength ≤ found.length then
      let division := division.push (.reference found.length found.distance)
      { division with held := none, place := division.place + found.length }
    else { division with held := some found, place := division.place + 1 }
  | none =>
    let division := division.push (.literal (data.getD division.place 0))
    { division with place := division.place + 1 }

/-- Decides about the byte at the place, and about an occurrence that is held back. -/
def advance (data : Buffer) (joints : Array Nat) (division : Division) : Division :=
  let place := division.place
  let search : Search := ⟨data, joints, place, ahead data place⟩
  let longest? (length : Nat) : Option Occurrence :=
    (search.longest? length).filter (isUseful place)
  match division.held with
  | none => division.take data (longest? 2)
  | some held =>
    match longest? held.length with
    | some found => (division.push (.literal (data.getD (place - 1) 0))).take data (some found)
    | none =>
      let division := division.push (.reference held.length held.distance)
      { division with held := none, place := place + (held.length - 1) }

/-- The room that the tokens of the current block take: eight of them share a byte of marks. -/
def markedRoom (division : Division) : Nat := 1 + division.room + division.tokens.size / 8

/-- Whether the current block ends here. -/
def isFull (division : Division) : Bool :=
  65528 < division.markedRoom
    || (31744 < division.size && division.size ≤ (division.markedRoom * 115) >>> 7)

/-- Ends the current block. `available` bytes are read ahead; the window has no room for as many. -/
def endBlock (division : Division) (available : Nat) : Division :=
  let inWindow := division.place - division.start ≤ windowSize - available
  let block : Block := ⟨division.tokens, division.start, division.size, inWindow⟩
  { division with
    blocks := division.blocks.push block, tokens := #[], start := division.start + division.size
    size := 0, room := 0 }

/-- Divides the rest of the data. Every turn takes a byte at least. -/
def finish (data : Buffer) (joints : Array Nat) : (turns : Nat) → Division → Array Block
  | 0, division => (division.endBlock 0).blocks
  | turns + 1, division =>
    let place := division.place
    if data.size ≤ place then (division.endBlock 0).blocks
    else
      let next := division.advance data joints
      let left := ahead data place - (next.place - place)
      finish data joints turns (if next.isFull then next.endBlock left else next)

end Division

/-- The blocks of data; there is one at least, and the last one may have no tokens. -/
def blocksOf (data : Buffer) : Array Block :=
  Division.finish data (joints data) data.size .beginning

end Reline.Zip.Deflate
