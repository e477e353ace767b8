/-
  Reline.Zip.Deflate.Token

  The parts that compressed data is made of, and the symbols that stand for them.
-/

import Reline.Zip.Inflate

namespace Reline.Zip.Deflate

/-- A part of compressed data. -/
inductive Token where
  /-- A byte that stands for itself. -/
  | literal (byte : UInt8)
  /-- The `length` bytes that begin `distance` bytes back. -/
  | reference (length distance : Nat)
deriving DecidableEq, Repr

/-- A number that is written as a symbol and, behind it, `width` bits more. -/
structure Coded where
  symbol : Nat
  more : Nat
  width : Nat
deriving DecidableEq, Repr

/-- The symbol of a table for a value, the last one whose least value is not above it. -/
def codedBy (table : Array (Nat × Nat)) (value : Nat) : Coded :=
  let symbol := (table.toList.takeWhile fun row => row.1 ≤ value).length - 1
  match table[symbol]? with
  | some (least, width) => ⟨symbol, value - least, width⟩
  | none => ⟨symbol, 0, 0⟩

/-- The symbol that ends a block. -/
def endSymbol : Nat := 256

/-- How a length is written. -/
def lengthCoded (length : Nat) : Coded :=
  let coded := codedBy Inflate.lengthSymbols length
  { coded with symbol := endSymbol + 1 + coded.symbol }

/-- How a distance is written. -/
def distanceCoded (distance : Nat) : Coded := codedBy Inflate.distanceSymbols distance

namespace Token

/-- How many bytes a token stands for. -/
def length : Token → Nat
  | literal _ => 1
  | reference length _ => length

/-- The symbol of the code for bytes and lengths. -/
def literalSymbol : Token → Nat
  | literal byte => byte.toNat
  | reference length _ => (lengthCoded length).symbol

/-- The symbol of the code for distances, if there is one. -/
def distanceSymbol? : Token → Option Nat
  | literal _ => none
  | reference _ distance => some (distanceCoded distance).symbol

end Token

end Reline.Zip.Deflate
