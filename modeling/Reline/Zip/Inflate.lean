/-
  Reline.Zip.Inflate

  Decompression of deflate streams.

  A stream is a sequence of blocks, each stored, coded with the fixed codes or
  coded with codes that it describes. Bits are taken from each byte from the
  lowest on. A stream that breaks a rule is corrupt; one that ends before its
  last block does is incomplete; what follows the last block is not read. A
  reference in front of the first byte finds zeros.
-/

import Reline.Bytes

namespace Reline.Zip.Inflate

/-- Why a stream cannot be decompressed. -/
inductive Fault where
  /-- The stream breaks a rule of its format. -/
  | corrupt
  /-- The stream ends early. -/
  | incomplete
deriving DecidableEq, Repr

/-! ## Bits -/

/-- A place in a sequence of bits. -/
structure BitCursor where
  /-- The bytes from the one that holds the next bit on. -/
  rest : Bytes
  /-- How many bits of the first byte have been taken. -/
  used : Nat

/-- A value read at a place, and the place behind it. -/
abbrev Read (α : Type) := Except Fault (α × BitCursor)

namespace BitCursor

/-- Takes a bit. -/
def bit (cursor : BitCursor) : Except Fault (Nat × BitCursor) :=
  match cursor.rest with
  | [] => .error .incomplete
  | b :: more =>
    let value := (b.toNat >>> cursor.used) % 2
    .ok (value, if cursor.used = 7 then ⟨more, 0⟩ else ⟨b :: more, cursor.used + 1⟩)

/-- Takes a number of `n` bits, the lowest first. -/
def bits : (n : Nat) → BitCursor → Except Fault (Nat × BitCursor)
  | 0, cursor => .ok (0, cursor)
  | n + 1, cursor =>
    match cursor.bit with
    | .error e => .error e
    | .ok (low, cursor) =>
      match bits n cursor with
      | .error e => .error e
      | .ok (high, cursor) => .ok (low + 2 * high, cursor)

/-- The bytes from the next whole byte on. -/
def align (cursor : BitCursor) : Bytes :=
  if cursor.used = 0 then cursor.rest else cursor.rest.drop 1

end BitCursor

/-! ## Prefix codes -/

/-- A canonical prefix code: how many symbols have each length, from one on, and the symbols in the
order of their codes. -/
structure Code where
  counts : List Nat
  symbols : Array Nat

namespace Code

/-- The greatest length of a code. -/
def maxLength : Nat := 15

/-- How many bit sequences of the greatest length begin with a code, given the number of codes of
each length. -/
def covered (counts : List Nat) : Nat :=
  counts.foldl (fun covered count => 2 * covered + count) 0

/-- The code in which each symbol has a given length; zero stands for a symbol that is not used. A
code has to use up all bit sequences, unless it may be `sparse`: then it may also have one symbol of
a single bit, or no symbol. -/
def ofLengths (sparse : Bool) (lengths : List Nat) : Except Fault Code :=
  let ofLength (n : Nat) : List Nat :=
    lengths.zipIdx.filterMap fun (length, symbol) => if length = n then some symbol else none
  let groups := (List.range maxLength).map fun n => ofLength (n + 1)
  let counts := groups.map List.length
  let symbols := groups.flatten
  let halfEmpty := symbols.length ≤ 1 && counts.headD 0 = symbols.length
  if covered counts ≠ 1 <<< maxLength && !(sparse && halfEmpty) then
    .error .corrupt
  else
    .ok ⟨counts, symbols.toArray⟩

/-- Takes bits until they are a code, or no code begins with them. `first` is the least code of the
current length and `index` the place of its symbol. -/
def symbolFrom (symbols : Array Nat) (code first index : Nat) :
    List Nat → BitCursor → Except Fault (Nat × BitCursor)
  | [], _ => .error .corrupt
  | count :: counts, cursor =>
    match cursor.bit with
    | .error e => .error e
    | .ok (bit, cursor) =>
      let code := code * 2 + bit
      let first := first * 2
      if code < first + count then
        match symbols[index + (code - first)]? with
        | some symbol => .ok (symbol, cursor)
        | none => .error .corrupt
      else if symbols.size ≤ index + count then .error .corrupt
      else
        symbolFrom symbols code (first + count) (index + count) counts cursor

/-- Takes a symbol. -/
def symbol (code : Code) (cursor : BitCursor) : Except Fault (Nat × BitCursor) :=
  symbolFrom code.symbols 0 0 0 code.counts cursor

end Code

/-! ## Lengths and distances -/

/-- The least value and the number of extra bits of each length symbol, from 257 on. -/
def lengthSymbols : Array (Nat × Nat) :=
  #[(3, 0), (4, 0), (5, 0), (6, 0), (7, 0), (8, 0), (9, 0), (10, 0), (11, 1), (13, 1), (15, 1),
    (17, 1), (19, 2), (23, 2), (27, 2), (31, 2), (35, 3), (43, 3), (51, 3), (59, 3), (67, 4),
    (83, 4), (99, 4), (115, 4), (131, 5), (163, 5), (195, 5), (227, 5), (258, 0)]

/-- The least value and the number of extra bits of each distance symbol. -/
def distanceSymbols : Array (Nat × Nat) :=
  #[(1, 0), (2, 0), (3, 0), (4, 0), (5, 1), (7, 1), (9, 2), (13, 2), (17, 3), (25, 3), (33, 4),
    (49, 4), (65, 5), (97, 5), (129, 6), (193, 6), (257, 7), (385, 7), (513, 8), (769, 8),
    (1025, 9), (1537, 9), (2049, 10), (3073, 10), (4097, 11), (6145, 11), (8193, 12), (12289, 12),
    (16385, 13), (24577, 13)]

/-- Takes the extra bits of a symbol of a table and gives the value. -/
def valueOf (table : Array (Nat × Nat)) (symbol : Nat) (cursor : BitCursor) :
    Except Fault (Nat × BitCursor) :=
  match table[symbol]? with
  | none => .error .corrupt
  | some (least, extra) =>
    match cursor.bits extra with
    | .error e => .error e
    | .ok (more, cursor) => .ok (least + more, cursor)

/-- Repeats `length` bytes from `distance` back. -/
def copyBack (distance : Nat) : (length : Nat) → Array UInt8 → Array UInt8
  | 0, out => out
  | length + 1, out =>
    let b := if distance ≤ out.size then out.getD (out.size - distance) 0 else 0
    copyBack distance length (out.push b)

/-! ## Blocks -/

/-- Reads the symbols of a block up to its end. Every turn takes a bit. -/
def symbolsOnto (literals distances : Code) :
    (turns : Nat) → Array UInt8 → BitCursor → Read (Array UInt8)
  | 0, _, _ => .error .incomplete
  | turns + 1, out, cursor =>
    match literals.symbol cursor with
    | .error e => .error e
    | .ok (symbol, cursor) =>
      if symbol < 256 then
        symbolsOnto literals distances turns (out.push (UInt8.ofNat symbol)) cursor
      else if symbol = 256 then .ok (out, cursor)
      else
        match valueOf lengthSymbols (symbol - 257) cursor with
        | .error e => .error e
        | .ok (length, cursor) =>
          match distances.symbol cursor with
          | .error e => .error e
          | .ok (symbol, cursor) =>
            match valueOf distanceSymbols symbol cursor with
            | .error e => .error e
            | .ok (distance, cursor) =>
              symbolsOnto literals distances turns (copyBack distance length out) cursor

/-- Reads a stored block: its length twice, the second time complemented, and its bytes. -/
def storedOnto (out : Array UInt8) (cursor : BitCursor) : Read (Array UInt8) :=
  match cursor.align with
  | a :: b :: c :: d :: rest =>
    let length := Bytes.toNatLE [a, b]
    if length + Bytes.toNatLE [c, d] ≠ 0xFFFF then .error .corrupt
    else
      let data := rest.take length
      if data.length < length then .error .incomplete
      else .ok (out.appendList data, ⟨rest.drop length, 0⟩)
  | _ => .error .incomplete

/-- The code lengths of the fixed literal code. -/
def fixedLiterals : List Nat :=
  List.replicate 144 8 ++ List.replicate 112 9 ++ List.replicate 24 7 ++ List.replicate 8 8

/-- The code lengths of the fixed distance code. -/
def fixedDistances : List Nat :=
  List.replicate 32 5

/-- The order in which the lengths of the code for code lengths are written. -/
def lengthOrder : List Nat :=
  [16, 17, 18, 0, 8, 7, 9, 6, 10, 5, 11, 4, 12, 3, 13, 2, 14, 1, 15]

/-- Reads the lengths of the code for code lengths for the symbols of a list. -/
def lengthLengths : List Nat → BitCursor → Read (List (Nat × Nat))
  | [], cursor => .ok ([], cursor)
  | symbol :: symbols, cursor =>
    match cursor.bits 3 with
    | .error e => .error e
    | .ok (length, cursor) =>
      match lengthLengths symbols cursor with
      | .error e => .error e
      | .ok (rest, cursor) => .ok ((symbol, length) :: rest, cursor)

/-- Reads code lengths, latest first, until there are `total`; runs of a length are written as one
symbol. Every turn adds one at least. -/
def codeLengthsOnto (code : Code) (total : Nat) :
    (turns : Nat) → List Nat → BitCursor → Read (List Nat)
  | 0, _, _ => .error .corrupt
  | turns + 1, onto, cursor =>
    if onto.length = total then .ok (onto, cursor)
    else if total < onto.length then .error .corrupt
    else
      match code.symbol cursor with
      | .error e => .error e
      | .ok (symbol, cursor) =>
        let run (length least extra : Nat) : Read (List Nat) :=
          match cursor.bits extra with
          | .error e => .error e
          | .ok (more, cursor) =>
            codeLengthsOnto code total turns (List.replicate (least + more) length ++ onto) cursor
        if symbol < 16 then codeLengthsOnto code total turns (symbol :: onto) cursor
        else if symbol = 16 then
          match onto with
          | [] => .error .corrupt
          | previous :: _ => run previous 3 2
        else if symbol = 17 then run 0 3 3
        else run 0 11 7

/-- Reads the codes of a block that describes them. -/
def readCodes (cursor : BitCursor) : Except Fault ((Code × Code) × BitCursor) := do
  let (literals, cursor) ← cursor.bits 5
  let (distances, cursor) ← cursor.bits 5
  let (lengths, cursor) ← cursor.bits 4
  let literals := literals + 257
  let distances := distances + 1
  if 286 < literals || 30 < distances then throw .corrupt
  let (known, cursor) ← lengthLengths (lengthOrder.take (lengths + 4)) cursor
  let code ← Code.ofLengths false ((List.range 19).map fun symbol => (known.lookup symbol).getD 0)
  let total := literals + distances
  let (back, cursor) ← codeLengthsOnto code total (total + 1) [] cursor
  let all := back.reverse
  return ((← Code.ofLengths true (all.take literals), ← Code.ofLengths true (all.drop literals)),
    cursor)

/-- Reads the contents of a block of a kind. -/
def blockOnto (kind turns : Nat) (out : Array UInt8) (cursor : BitCursor) :
    Except Fault (Array UInt8 × BitCursor) :=
  match kind with
  | 0 => storedOnto out cursor
  | 1 => do
    symbolsOnto (← Code.ofLengths true fixedLiterals) (← Code.ofLengths true fixedDistances) turns
      out cursor
  | 2 => do
    let ((literals, distances), cursor) ← readCodes cursor
    symbolsOnto literals distances turns out cursor
  | _ => .error .corrupt

/-- Reads blocks up to the last. Every turn takes bits. -/
def blocksOnto : (turns : Nat) → Array UInt8 → BitCursor → Except Fault (Array UInt8)
  | 0, _, _ => .error .incomplete
  | turns + 1, out, cursor => do
    let (last, cursor) ← cursor.bit
    let (kind, cursor) ← cursor.bits 2
    let (out, cursor) ← blockOnto kind (turns + 1) out cursor
    if last = 1 then return out else blocksOnto turns out cursor

end Reline.Zip.Inflate

namespace Reline.Zip

/-- The data of a deflate stream. -/
def inflate (stream : Bytes) : Except Inflate.Fault Bytes :=
  (Inflate.blocksOnto (8 * stream.length + 1) #[] ⟨stream, 0⟩).map Array.toList

end Reline.Zip
