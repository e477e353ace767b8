/-
  Reline.Zip.Deflate.Encode

  The bits of blocks.

  A short block has the fixed codes; any other block has codes of its own, which
  stand in front of its tokens. If that takes no less room than the data, the
  data is stored as it is.
-/

import Reline.Zip.Deflate.BitWriter
import Reline.Zip.Deflate.Blocks
import Reline.Zip.Deflate.CodeLengths

namespace Reline.Zip.Deflate

/-! ## Frequencies -/

/-- How often each of `count` symbols occurs in a list. -/
def frequenciesOf (count : Nat) (symbols : List Nat) : Array Nat :=
  symbols.foldl (fun all symbol => all.modify symbol (· + 1)) (Array.replicate count 0)

namespace Block

/-- How often each symbol for bytes and lengths occurs in a block. -/
def literalFrequencies (block : Block) : Array Nat :=
  frequenciesOf 286 (endSymbol :: block.tokens.toList.map Token.literalSymbol)

/-- How often each symbol for distances occurs in a block. -/
def distanceFrequencies (block : Block) : Array Nat :=
  frequenciesOf 30 (block.tokens.toList.filterMap Token.distanceSymbol?)

end Block

/-! ## Tokens -/

/-- Writes the code of a symbol. -/
def BitWriter.putSymbol (words : Array (Nat × Nat)) (writer : BitWriter) (symbol : Nat) :
    BitWriter :=
  let (code, width) := words.getD symbol (0, 0)
  writer.put code width

/-- Writes a number by its symbol. -/
def BitWriter.putCoded (words : Array (Nat × Nat)) (writer : BitWriter) (coded : Coded) :
    BitWriter :=
  (writer.putSymbol words coded.symbol).put coded.more coded.width

/-- Writes the tokens of a block and its end in given codes. -/
def BitWriter.putTokens (literals distances : Array (Nat × Nat)) (tokens : Array Token)
    (writer : BitWriter) : BitWriter :=
  let putToken (writer : BitWriter) : Token → BitWriter
    | .literal byte => writer.putSymbol literals byte.toNat
    | .reference length distance =>
      (writer.putCoded literals (lengthCoded length)).putCoded distances (distanceCoded distance)
  (tokens.foldl putToken writer).putSymbol literals endSymbol

/-! ## Codes -/

/-- A run of one code length. -/
def runs : List Nat → List (Nat × Nat)
  | [] => []
  | length :: rest =>
    match runs rest with
    | (next, count) :: more =>
      if next = length then (length, count + 1) :: more
      else (length, 1) :: (next, count) :: more
    | [] => [(length, 1)]

/-- A run of zeros: up to two by themselves, more of them by a symbol. -/
def codedZeros (count : Nat) : List Coded :=
  let rest := count % 138
  List.replicate (count / 138) ⟨18, 127, 7⟩ ++
    if rest < 3 then List.replicate rest ⟨0, 0, 0⟩
    else if rest ≤ 10 then [⟨17, rest - 3, 3⟩]
    else [⟨18, rest - 11, 7⟩]

/-- A run of another length: the first one by itself, the others as repetitions of it, if there are
three at least. -/
def codedRepeats (length count : Nat) : List Coded :=
  let rest := (count - 1) % 6
  ⟨length, 0, 0⟩ :: List.replicate ((count - 1) / 6) ⟨16, 3, 2⟩ ++
    if rest < 3 then List.replicate rest ⟨length, 0, 0⟩ else [⟨16, rest - 3, 2⟩]

/-- Code lengths as they are written. -/
def codedLengths (lengths : List Nat) : List Coded :=
  (runs lengths).flatMap fun (length, count) =>
    if length = 0 then codedZeros count else codedRepeats length count

/-- How many of some lengths are left without the zeros at their end, but `least` of them. -/
def usedLength (least : Nat) (lengths : List Nat) : Nat :=
  max least (lengths.reverse.dropWhile (· = 0)).length

/-- Writes the codes of a block by their lengths. -/
def BitWriter.putLengths (literals distances : Array Nat) (writer : BitWriter) : BitWriter :=
  let literalCount := usedLength 257 literals.toList
  let distanceCount := usedLength 1 distances.toList
  let coded :=
    codedLengths (literals.toList.take literalCount ++ distances.toList.take distanceCount)
  let lengths := codeLengths 7 (frequenciesOf 19 (coded.map Coded.symbol))
  let words := codeWords lengths
  let ordered := Inflate.lengthOrder.map fun symbol => lengths.getD symbol 0
  let orderedCount := usedLength 4 ordered
  let writer := writer.put (literalCount - 257) 5
  let writer := writer.put (distanceCount - 1) 5
  let writer := writer.put (orderedCount - 4) 4
  let writer := (ordered.take orderedCount).foldl (fun writer length => writer.put length 3) writer
  coded.foldl (fun writer coded => writer.putCoded words coded) writer

/-! ## Blocks -/

/-- The size from which on a block has codes of its own. -/
def ownCodesFrom : Nat := 48

/-- The greatest size of a block that is not stored. -/
def compressedUpTo : Nat := 32

/-- Writes a block compressed. -/
def BitWriter.putCompressed (block : Block) (writer : BitWriter) : BitWriter :=
  if block.size < ownCodesFrom then
    (writer.put 1 2).putTokens (codeWords Inflate.fixedLiterals.toArray)
      (codeWords Inflate.fixedDistances.toArray) block.tokens
  else
    let literals := codeLengths Inflate.Code.maxLength block.literalFrequencies
    let distances := codeLengths Inflate.Code.maxLength block.distanceFrequencies
    ((writer.put 2 2).putLengths literals distances).putTokens (codeWords literals)
      (codeWords distances) block.tokens

/-- Writes bytes as they are. -/
def BitWriter.putStored (bytes : Array UInt8) (writer : BitWriter) : BitWriter :=
  let writer := (writer.put 0 2).pad
  ((writer.put bytes.size 16).put (0xFFFF - bytes.size) 16).putBytes bytes

/-- Writes a block of the data; the `last` one is marked. -/
def BitWriter.putBlock (data : Buffer) (block : Block) (last : Bool) (writer : BitWriter) :
    BitWriter :=
  let writer := writer.put last.toNat 1
  let compressed := writer.putCompressed block
  if compressedUpTo < block.size && block.inWindow
      && block.size ≤ compressed.bytes.size - writer.bytes.size + 1 then
    writer.putStored (data.extract block.start (block.start + block.size))
  else compressed

/-- The bytes of the blocks of data. -/
def encodeBlocks (data : Buffer) (blocks : Array Block) : Bytes :=
  let putBlock (writer : BitWriter) (indexed : Block × Nat) : BitWriter :=
    writer.putBlock data indexed.1 (indexed.2 + 1 = blocks.size)
  (blocks.zipIdx.foldl putBlock .empty).pad.bytes.toList

end Reline.Zip.Deflate
