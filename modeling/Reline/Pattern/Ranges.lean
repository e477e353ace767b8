/-
  Reline.Pattern.Ranges

  The ranges that make up a set of characters.

  A set of numbers is written as the ascending list of its edges: the numbers
  where membership changes, counted from outside of the set. Each set has one
  such list, and two sets are combined in one pass over their lists.
-/

import Reline.Pattern.CharSet

namespace Reline.CharSet

/-! ## Edges -/

/-- Combines two sets, given the edges that are ahead of a place and whether the place is in the one
and in the other set. -/
def mergeEdges (op : Bool → Bool → Bool) (inA inB : Bool) : List Nat → List Nat → List Nat
  | [], [] => []
  | a :: as, [] =>
    let rest := mergeEdges op (! inA) inB as []
    if op inA inB = op (! inA) inB then rest else a :: rest
  | [], b :: bs =>
    let rest := mergeEdges op inA (! inB) [] bs
    if op inA inB = op inA (! inB) then rest else b :: rest
  | a :: as, b :: bs =>
    if a < b then
      let rest := mergeEdges op (! inA) inB as (b :: bs)
      if op inA inB = op (! inA) inB then rest else a :: rest
    else if b < a then
      let rest := mergeEdges op inA (! inB) (a :: as) bs
      if op inA inB = op inA (! inB) then rest else b :: rest
    else
      let rest := mergeEdges op (! inA) (! inB) as bs
      if op inA inB = op (! inA) (! inB) then rest else a :: rest
  termination_by as bs => as.length + bs.length

/-- The edges of a combination of two sets; outside of both is outside of the combination. -/
def combineEdges (op : Bool → Bool → Bool) (a b : List Nat) : List Nat :=
  mergeEdges op false false a b

/-- The edges of the set of all characters: surrogates are none. -/
def allEdges : List Nat := [0, 0xD800, 0xE000, 0x110000]

/-- The edges of a set together with its ASCII letters in the other case. -/
def foldEdges (edges : List Nat) : List Nat :=
  let upper := combineEdges (· && ·) edges ['A'.toNat, 'Z'.toNat + 1]
  let lower := combineEdges (· && ·) edges ['a'.toNat, 'z'.toNat + 1]
  let others := combineEdges (· || ·) (upper.map (· + 32)) (lower.map (· - 32))
  combineEdges (· || ·) edges others

/-- The edges of a set. -/
def edges : CharSet → List Nat
  | empty => []
  | range first last =>
    if first ≤ last then combineEdges (· && ·) [first.toNat, last.toNat + 1] allEdges else []
  | union a b => combineEdges (· || ·) a.edges b.edges
  | inter a b => combineEdges (· && ·) a.edges b.edges
  | complement a => combineEdges (fun inA inAll => inAll && ! inA) a.edges allEdges
  | anyCase a => foldEdges a.edges

/-! ## Ranges -/

/-- The ranges between edges, with their last numbers included. -/
def rangesOfEdges : List Nat → List (Nat × Nat)
  | start :: stop :: rest => (start, stop - 1) :: rangesOfEdges rest
  | _ => []

/-- The ranges of code points that make up a set, the lowest first. No two of them meet, and none
reaches over the surrogates. -/
def ranges (set : CharSet) : List (Nat × Nat) := rangesOfEdges set.edges

end Reline.CharSet
