/-
  Reline.Pattern.Size

  The space that the automaton of a pattern takes.

  An automaton has states for the bytes of characters, for conditions, for the
  ends of groups and for choices. Every turn of a repetition that is counted has
  states of its own, so that a short pattern may need a large automaton. Besides
  the automaton that reads a text forward there is one that reads backward.
-/

import Reline.Pattern.Shape

namespace Reline.Pattern

/-- The direction in which a text is read. -/
inductive Direction where
  | forward
  | backward
deriving DecidableEq, Repr

/-! ## Space -/

/-- The bytes that a state takes. -/
def stateSize : Nat := 32

/-- The bytes that a state takes for each of its transitions on bytes, if it has several. -/
def transitionSize : Nat := 8

/-- The bytes that a choice takes for each of the states it can go on to. -/
def linkSize : Nat := 4

/-- The space that a part of an automaton takes. -/
structure Space where
  /-- The bytes. -/
  bytes : Nat
  /-- Whether the last state is a choice, to which the state behind it has to be linked. -/
  isOpen : Bool
deriving DecidableEq, Repr

namespace Space

/-- A part of an automaton that does not end in a choice. -/
def closed (bytes : Nat) : Space := ⟨bytes, false⟩

/-- The bytes of the link to the state behind. -/
def link (space : Space) : Nat := if space.isOpen then linkSize else 0

/-- The bytes with those of the link to the state behind. -/
def linked (space : Space) : Nat := space.bytes + space.link

/-- One part and another that is read next. -/
def andThen (a b : Space) : Space := ⟨a.linked + b.bytes, b.isOpen⟩

/-- A part `n` times in a row. -/
def times (n : Nat) (a : Space) : Space :=
  if n = 0 then closed stateSize else ⟨n * a.bytes + (n - 1) * a.link, a.isOpen⟩

/-- A part at least `least` times. A part that may match the empty text has an automaton of its own
for any number of times. -/
def atLeast (least : Nat) (mayBeEmpty : Bool) (a : Space) : Space :=
  if least = 0 && mayBeEmpty then closed (a.linked + 3 * stateSize + 4 * linkSize)
  else ⟨max least 1 * a.linked + stateSize + linkSize, true⟩

/-- A part from `least` to `most` times. -/
def between (least most : Nat) (a : Space) : Space :=
  let turn := a.linked + stateSize + 2 * linkSize
  if least = 0 && most = 1 then closed (turn + stateSize)
  else if least = most then a.times least
  else closed ((a.times least).linked + stateSize + (most - least) * turn)

end Space

/-! ## Sets -/

/-- The groups of neighbouring sequences that begin alike, as their common beginning and what is
behind it. -/
def groupByHead : List (List ByteRange) → List (ByteRange × List (List ByteRange))
  | [] => []
  | [] :: rest => groupByHead rest
  | (range :: tail) :: rest =>
    match groupByHead rest with
    | (next, tails) :: groups =>
      if next = range then (range, tail :: tails) :: groups
      else (range, [tail]) :: (next, tails) :: groups
    | [] => [(range, [tail])]

/-- The states that read some sequences with up to `depth` ranges. A state is known by the sequences
that it reads. -/
def sequenceStates : (depth : Nat) → List (List ByteRange) → List (List (List ByteRange))
  | 0, _ => []
  | depth + 1, sequences =>
    if sequences.all List.isEmpty then []
    else sequences :: (groupByHead sequences).flatMap fun (_, tails) => sequenceStates depth tails

/-- The beginnings of a sequence, apart from the empty one. -/
def beginnings : List ByteRange → List (List ByteRange)
  | [] => []
  | range :: rest => [range] :: (beginnings rest).map (range :: ·)

/-- The space of a set. Forward, equal states are shared; backward, the bytes in front of a
character's last ones are. -/
def setSpace (direction : Direction) (ranges : List (Nat × Nat)) : Space :=
  let sequences := utf8Sequences ranges
  .closed <|
    if ranges.all (·.2 < 0x80) then 2 * stateSize + transitionSize * ranges.length
    else match direction with
      | .forward =>
        (sequenceStates 4 sequences).eraseDups.foldl
          (fun size state => size + stateSize + transitionSize * (groupByHead state).length)
          stateSize
      | .backward =>
        2 * stateSize + linkSize * sequences.length
          + stateSize * (sequences.flatMap beginnings).eraseDups.length

/-! ## Choices of texts -/

/-- The words of a list up to an empty one, and those behind it if there is one. -/
def splitAtEmpty : List (List UInt8) → List (List UInt8) × Option (List (List UInt8))
  | [] => ([], none)
  | [] :: rest => ([], some rest)
  | word :: rest =>
    let (chunk, behind) := splitAtEmpty rest
    (word :: chunk, behind)

/-- The words of a list in chunks: an empty word stands between two of them. -/
def chunks : (count : Nat) → List (List UInt8) → List (List (List UInt8))
  | 0, _ => []
  | count + 1, words =>
    match splitAtEmpty words with
    | (chunk, none) => [chunk]
    | (chunk, some behind) => chunk :: chunks count behind

/-- What is behind a byte in the words that begin with it. -/
def tailsOf (byte : UInt8) (words : List (List UInt8)) : List (List UInt8) :=
  words.filterMap fun word =>
    match word with
    | first :: tail => if first = byte then some tail else none
    | [] => none

/-- The bytes of the states that tell some words with up to `depth` bytes apart, which are not all
empty. The words in front of an empty one are preferred to it, those behind it are not. -/
def wordsSize : (depth : Nat) → List (List UInt8) → Nat
  | 0, _ => 0
  | depth + 1, words =>
    let leading := words.takeWhile List.isEmpty
    let words := leading.take 1 ++ words.dropWhile List.isEmpty
    let chunks := chunks (words.length + 1) words
    let chunkSize (chunk : List (List UInt8)) : Nat :=
      let bytes := (chunk.filterMap List.head?).eraseDups
      let below := bytes.foldl (fun size byte =>
        let tails := tailsOf byte chunk
        if tails.all List.isEmpty then size else size + wordsSize depth tails) 0
      let transitions := if 1 < bytes.length then transitionSize * bytes.length else 0
      if bytes.isEmpty then 0 else stateSize + transitions + linkSize + below
    chunks.foldl (fun size chunk => size + chunkSize chunk)
      (stateSize + linkSize * (chunks.length - 1))

/-- The space of a choice of words. -/
def wordsSpace (direction : Direction) (words : List (List Char)) : Space :=
  let encoded := words.map fun word =>
    let bytes := (String.ofList word).toUTF8.toList
    match direction with
    | .forward => bytes
    | .backward => bytes.reverse
  let depth := encoded.foldl (fun depth word => max depth word.length) 0
  .closed (stateSize + wordsSize (depth + 1) encoded)

/-! ## Shapes -/

/-- The space of the automaton for a shape. Only forward, the ends of groups are noted. -/
def Shape.space (direction : Direction) : Shape → Space
  | .empty | .anchor _ => .closed stateSize
  | .literal text => .closed (stateSize * textLength text)
  | .set ranges => setSpace direction ranges
  | .group _ a =>
    match direction with
    | .forward => .closed ((a.space direction).linked + 2 * stateSize)
    | .backward => a.space direction
  | .concat a b =>
    match direction with
    | .forward => (a.space direction).andThen (b.space direction)
    | .backward => (b.space direction).andThen (a.space direction)
  | .words texts => wordsSpace direction texts
  | .alternate a b =>
    let rest := match b with
      | .alternate .. => (b.space direction).bytes
      | _ => 2 * stateSize + linkSize + (b.space direction).linked
    .closed (rest + linkSize + (a.space direction).linked)
  | .repeated least none _ a =>
    (a.space direction).atLeast least (a.minLength.getD 0 = 0)
  | .repeated least (some most) _ a => (a.space direction).between least most

/-- The bytes of an automaton for a shape. In front of it stands a loop over any bytes, unless the
text has to begin there. -/
def Shape.size (direction : Direction) (shape : Shape) : Nat :=
  let space := shape.space direction
  match direction with
  | .forward =>
    let start := if shape.beginsAt .textStart then stateSize
      else 3 * stateSize + transitionSize + 2 * linkSize
    start + 2 * stateSize + space.linked + stateSize
  | .backward =>
    let start := if shape.endsAt .textEnd then stateSize
      else 3 * stateSize + transitionSize + 2 * linkSize
    start + space.linked + stateSize

end Reline.Pattern
