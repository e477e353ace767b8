/-
  Reline.Zip.Deflate.CodeLengths

  The lengths of codes for symbols that occur with given frequencies.

  The two rarest symbols are joined to one until a single one is left; a code is
  as long as its symbol has been joined. Codes that are too long are shortened
  at the expense of shorter ones.
-/

import Reline.Zip.Inflate

namespace Reline.Zip.Deflate

/-! ## Joining -/

/-- Symbols that have been joined: how often they occur together, and for each how many times it has
been joined. -/
structure Joined where
  weight : Nat
  depths : List Nat
deriving DecidableEq, Repr

namespace Joined

/-- Two together. -/
def join (a b : Joined) : Joined := ⟨a.weight + b.weight, (a.depths ++ b.depths).map (· + 1)⟩

/-- Takes the rarest one of two lists in ascending order. Of equals, the one of the first list goes
first. -/
def takeRarest? : (single joined : List Joined) → Option (Joined × List Joined × List Joined)
  | [], [] => none
  | a :: single, [] => some (a, single, [])
  | [], b :: joined => some (b, [], joined)
  | a :: single, b :: joined =>
    if b.weight < a.weight then some (b, a :: single, joined) else some (a, single, b :: joined)

/-- Joins the rarest two, `turns` times. Single symbols and joined ones are in ascending order. -/
def joinRarest : (turns : Nat) → (single joined : List Joined) → List Nat
  | 0, single, joined => (single ++ joined).flatMap Joined.depths
  | turns + 1, single, joined =>
    match takeRarest? single joined with
    | none => []
    | some (a, single, joined) =>
      match takeRarest? single joined with
      | none => a.depths
      | some (b, single, joined) => joinRarest turns single (joined ++ [a.join b])

end Joined

/-- The lengths of the codes of symbols whose frequencies are in ascending order, the greatest
length first. A single symbol has a code of one bit. -/
def depthsOf (frequencies : List Nat) : List Nat :=
  if frequencies.length = 1 then [1]
  else
    let single := frequencies.map fun frequency => (⟨frequency, [0]⟩ : Joined)
    (Joined.joinRarest (frequencies.length - 1) single []).mergeSort (fun a b => b ≤ a)

/-! ## Limiting -/

/-- How many lengths there are of each size from `limit` down to one; greater ones count as
`limit`. -/
def tally (limit : Nat) (lengths : List Nat) : List Nat :=
  (List.range limit).map fun i => lengths.countP fun length => min length limit = limit - i

/-- Makes two codes out of the longest one that is not of the greatest length. -/
def splitLongest : List Nat → List Nat
  | a :: b :: rest => if b = 0 then a :: splitLongest (b :: rest) else (a + 2) :: (b - 1) :: rest
  | counts => counts

/-- Gives up one of the longest codes, and puts another code at its place. -/
def shorten : List Nat → List Nat
  | [] => []
  | a :: rest => splitLongest ((a - 1) :: rest)

/-- How many bit sequences of the greatest length begin with one of the codes. -/
def coveredBy (counts : List Nat) : Nat :=
  counts.foldr (fun count covered => count + 2 * covered) 0

/-- Lengths in descending order as lengths up to a limit that make up a code. -/
def limitLengths (limit : Nat) (lengths : List Nat) : List Nat :=
  let counts := tally limit lengths
  let excess := if lengths.length ≤ 1 then 0 else coveredBy counts - 1 <<< limit
  let counts := excess.repeat shorten counts
  (counts.zipIdx.map fun (count, i) => List.replicate count (limit - i)).flatten

/-! ## Symbols -/

/-- The lengths of the codes of symbols with some frequencies; symbols that do not occur have none.
The rarest symbols have the longest codes, and of equals the first. -/
def codeLengths (limit : Nat) (frequencies : Array Nat) : Array Nat :=
  let used := frequencies.toList.zipIdx.filter fun (frequency, _) => frequency ≠ 0
  let sorted := used.mergeSort fun a b => a.1 ≤ b.1
  let lengths := limitLengths limit (depthsOf (sorted.map Prod.fst))
  (sorted.zip lengths).foldl (fun all ((_, symbol), length) => all.setIfInBounds symbol length)
    (Array.replicate frequencies.size 0)

/-! ## Codes -/

/-- The least code of each length from one on, given the number of codes of each length. -/
def firstCodes (previous : Nat) : List Nat → List Nat
  | [] => []
  | count :: counts => previous * 2 :: firstCodes (previous * 2 + count) counts

/-- The bits of a code as a number whose lowest bit is the first. -/
def reverseBits : (width value : Nat) → Nat
  | 0, _ => 0
  | width + 1, value => (value % 2) <<< width + reverseBits width (value / 2)

/-- The code of each symbol, to be written from the lowest bit on, and its length. Codes of one
length are in the order of their symbols. -/
def codeWords (lengths : Array Nat) : Array (Nat × Nat) :=
  let counts := (List.range Inflate.Code.maxLength).map fun i => lengths.toList.count (i + 1)
  let next : Array Nat := (0 :: firstCodes 0 counts).toArray
  (lengths.foldl (fun (words, next) length =>
    if length = 0 then (words.push (0, 0), next)
    else
      let code := next.getD length 0
      (words.push (reverseBits length code, length), next.setIfInBounds length (code + 1)))
    (#[], next)).1

end Reline.Zip.Deflate
