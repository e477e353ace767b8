/-
  Reline.Zip.Deflate.Search

  The search for earlier occurrences of the bytes at a place.

  Every place is joined to the latest place in front of it where three bytes
  with the same hash begin. A search follows these joints and keeps the longest
  occurrence; it gives up after a number of places.
-/

import Reline.Bytes

namespace Reline.Zip.Deflate

/-! ## Places with the same hash -/

/-- The number of hashes. -/
def hashCount : Nat := 32768

/-- The hash of the three bytes at a place. -/
def hashAt (data : Buffer) (place : Nat) : Nat :=
  let byte (i : Nat) : Nat := (data.getD (place + i) 0).toNat
  (byte 0 <<< 10 ^^^ byte 1 <<< 5 ^^^ byte 2) % hashCount

/-- The joints of the next places of the data, pushed to those of the places before. `latest` has
the latest place with each hash, and zero stands for none. -/
def jointsOnto (data : Buffer) : (count : Nat) → (latest joints : Array Nat) → Array Nat
  | 0, _, joints => joints
  | count + 1, latest, joints =>
    let place := joints.size
    let hash := hashAt data place
    let joint := latest.getD hash 0
    jointsOnto data count (latest.setIfInBounds hash place) (joints.push joint)

/-- The joint of each place of the data where three bytes begin. -/
def joints (data : Buffer) : Array Nat :=
  jointsOnto data (data.size - 2) (Array.replicate hashCount 0) #[]

/-! ## Occurrences -/

/-- The greatest length of a reference. -/
def maxLength : Nat := 258

/-- The number of bytes that a reference can go back. -/
def windowSize : Nat := 32768

/-- How many bytes are equal from two places on, up to a limit. -/
def agreement (data : Buffer) (a b : Nat) : (limit : Nat) → Nat
  | 0 => 0
  | limit + 1 =>
    if data.getD a 0 = data.getD b 0 then agreement data (a + 1) (b + 1) limit + 1 else 0

/-- An earlier occurrence of the bytes at a place: how many of them, and how far back. -/
structure Occurrence where
  length : Nat
  distance : Nat
deriving DecidableEq, Repr

/-- What a search is about. -/
structure Search where
  data : Buffer
  joints : Array Nat
  /-- The place of the bytes that are looked for. -/
  place : Nat
  /-- How many of them there are. -/
  available : Nat

namespace Search

/-- How far back an occurrence can begin. -/
def maxDistance (search : Search) : Nat := min search.place (windowSize - search.available)

/-- Whether the bytes that would make an occurrence longer than `length`, and the one in front of
them, are the same at a place. -/
def extendsAt (search : Search) (place length : Nat) : Bool :=
  let same (i : Nat) : Bool :=
    search.data.getD (place + i) 0 = search.data.getD (search.place + i) 0
  same (length - 1) && same length

/-- Follows the joints from a place on. A place whose bytes are compared in full uses up what is
left of three steps. A joint to every 65536th place is the last of its row. -/
def follow (search : Search) (steps place : Nat) (best : Occurrence) : Occurrence :=
  if steps = 0 then best
  else
    let next := search.joints.getD place 0
    let distance := search.place - next
    if next % 65536 = 0 || search.maxDistance < distance then best
    else if search.extendsAt next best.length then
      let length := agreement search.data next search.place search.available
      let best := if best.length < length then ⟨length, distance⟩ else best
      if best.length = search.available then best
      else search.follow ((steps - 1) / 3 * 3) next best
    else search.follow (steps - 1) next best
termination_by steps
decreasing_by all_goals omega

/-- The number of steps of a search for an occurrence longer than `length`. -/
def stepsFor (length : Nat) : Nat := if length < 32 then 129 else 33

/-- The longest occurrence that is longer than `length`. -/
def longest? (search : Search) (length : Nat) : Option Occurrence :=
  if search.available ≤ length then none
  else
    let found := search.follow (stepsFor length) search.place ⟨length, 0⟩
    if found.distance = 0 then none else some found

end Search

end Reline.Zip.Deflate
