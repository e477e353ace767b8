/-
  Reline.Pattern.Utf8Ranges

  The ranges of bytes by which characters are told apart.

  A range of characters is cut until each part is the product of ranges of
  bytes: a text of the same length has a character of the part just if each of
  its bytes is in the range at its place.
-/

namespace Reline.Pattern

/-- The first and the last of a range of bytes. -/
abbrev ByteRange := Nat × Nat

/-! ## Encoding -/

/-- How many bytes a code point takes. -/
def encodedLength (n : Nat) : Nat :=
  if n < 0x80 then 1 else if n < 0x800 then 2 else if n < 0x10000 then 3 else 4

/-- The bytes of a code point behind the first: `count` of them, with six bits each. -/
def tailBytes (n : Nat) : (count : Nat) → List Nat
  | 0 => []
  | count + 1 => (0x80 + (n >>> (6 * count)) % 0x40) :: tailBytes n count

/-- The bytes of a code point. -/
def encodedBytes (n : Nat) : List Nat :=
  match encodedLength n with
  | 1 => [n]
  | 2 => (0xC0 + (n >>> 6)) :: tailBytes n 1
  | 3 => (0xE0 + (n >>> 12)) :: tailBytes n 2
  | _ => (0xF0 + (n >>> 18)) :: tailBytes n 3

/-! ## Cutting -/

/-- Cuts a range so that no part holds both `last` and the number behind it. -/
def cutBehind (last : Nat) (range : Nat × Nat) : List (Nat × Nat) :=
  if range.1 ≤ last ∧ last < range.2 then [(range.1, last), (last + 1, range.2)] else [range]

/-- Cuts a range so that a part either stays inside of a block of `size` numbers or is made up of
whole blocks. -/
def cutAtBlocks (size : Nat) (range : Nat × Nat) : List (Nat × Nat) :=
  let (start, stop) := (range.1, range.2 + 1)
  if start / size = range.2 / size then [range]
  else
    let firstBlock := (start + size - 1) / size * size
    let lastBlock := stop / size * size
    [(start, firstBlock), (firstBlock, lastBlock), (lastBlock, stop)]
      |>.filter (fun (start, stop) => start < stop)
      |>.map (fun (start, stop) => (start, stop - 1))

/-- The parts of a range of code points. A character of one byte is its byte. -/
def utf8Parts (range : Nat × Nat) : List (Nat × Nat) :=
  let byLength := [range].flatMap (cutBehind 0x7F)
    |>.flatMap (cutBehind 0x7FF)
    |>.flatMap (cutBehind 0xFFFF)
  byLength.flatMap fun part =>
    if part.2 < 0x80 then [part]
    else
      [part].flatMap (cutAtBlocks 0x40)
        |>.flatMap (cutAtBlocks 0x1000)
        |>.flatMap (cutAtBlocks 0x40000)

/-- The ranges of bytes of each part of some ranges of code points. -/
def utf8Sequences (ranges : List (Nat × Nat)) : List (List ByteRange) :=
  (ranges.flatMap utf8Parts).map fun (first, last) => (encodedBytes first).zip (encodedBytes last)

end Reline.Pattern
