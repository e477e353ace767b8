/-
  Reline.Pattern.Shape

  The simplified form of a pattern.

  Neighbouring characters become one literal, sequences and alternatives inside
  of their own kind are flattened, alternatives of single characters become a
  set, and a common beginning of alternatives is written once. Repetitions that
  cannot matter are left out.
-/

import Reline.Pattern.Basic
import Reline.Pattern.Ranges
import Reline.Pattern.Utf8Ranges

namespace Reline.Pattern

/-- A simplified pattern. A sequence or a choice of several parts is a chain: its first part is of
another kind, and its second part is the last one or the rest of the chain. -/
inductive Shape where
  | empty
  /-- A text of at least one character. -/
  | literal (text : List Char)
  /-- A set of characters, not of one only, by its ranges of code points. -/
  | set (ranges : List (Nat × Nat))
  | anchor (condition : Anchor)
  | group (place : Nat) (a : Shape)
  | concat (a b : Shape)
  /-- A choice whose branches are literals, several and not all of one character. -/
  | words (texts : List (List Char))
  /-- Any other choice. -/
  | alternate (a b : Shape)
  | repeated (least : Nat) (most : Option Nat) (greedy : Bool) (a : Shape)
deriving DecidableEq, Repr

namespace Shape

/-- The shape of a set with some edges. -/
def ofEdges (edges : List Nat) : Shape :=
  match CharSet.rangesOfEdges edges with
  | [(first, last)] =>
    if first = last then literal [Char.ofNat first] else set [(first, last)]
  | ranges => set ranges

/-! ## Lengths -/

/-- The number of bytes of a text. -/
def textLength (text : List Char) : Nat := text.foldl (fun n c => n + c.utf8Size) 0

/-- The least number of bytes that a shape matches; `none` if it matches nothing, as far as its sets
and the way they are put together tell. -/
def minLength : Shape → Option Nat
  | empty | anchor _ => some 0
  | literal text => some (textLength text)
  | set ranges => ranges.head?.map fun range => encodedLength range.1
  | group _ a => a.minLength
  | concat a b => do return (← a.minLength) + (← b.minLength)
  | words texts => (texts.map textLength).min?
  | alternate a b => do return min (← a.minLength) (← b.minLength)
  | repeated least _ _ a => a.minLength.map (· * least)

/-- The greatest number of bytes that a shape matches; `none` if there is no bound, or if it matches
nothing. -/
def maxLength : Shape → Option Nat
  | empty | anchor _ => some 0
  | literal text => some (textLength text)
  | set ranges => ranges.getLast?.map fun range => encodedLength range.2
  | group _ a => a.maxLength
  | concat a b => do return (← a.maxLength) + (← b.maxLength)
  | words texts => (texts.map textLength).max?
  | alternate a b => do return max (← a.maxLength) (← b.maxLength)
  | repeated _ most _ a => do return (← a.maxLength) * (← most)

/-! ## Sequences -/

/-- One shape behind another. -/
def append : (a b : Shape) → Shape
  | empty, b => b
  | concat a rest, b => a.append (rest.append b)
  | literal text, b =>
    match b with
    | empty => literal text
    | literal more => literal (text ++ more)
    | concat (literal more) rest => concat (literal (text ++ more)) rest
    | b => concat (literal text) b
  | a, empty => a
  | a, b => concat a b

/-- The parts of a sequence. -/
def parts : Shape → List Shape
  | empty => []
  | concat a rest => a :: rest.parts
  | a => [a]

/-- The shape of some parts in a row. -/
def sequence (parts : List Shape) : Shape := parts.foldr append empty

/-! ## Choices -/

/-- The branches of a choice. -/
def branches : Shape → List Shape
  | words texts => texts.map literal
  | alternate a rest => a :: rest.branches
  | a => [a]

/-- The edges of the sets of some branches, if all of them are sets. -/
def setEdges? : List Shape → Option (List Nat)
  | [] => some []
  | set ranges :: rest =>
    (setEdges? rest).map fun edges =>
      CharSet.combineEdges (· || ·) (ranges.flatMap fun range => [range.1, range.2 + 1]) edges
  | _ => none

/-- The edges of the characters of some branches, if all of them are single characters. -/
def characterEdges? : List Shape → Option (List Nat)
  | [] => some []
  | literal [c] :: rest =>
    (characterEdges? rest).map (CharSet.combineEdges (· || ·) [c.toNat, c.toNat + 1] ·)
  | _ => none

/-- The texts of some branches, if all of them are literals. -/
def texts? : List Shape → Option (List (List Char))
  | [] => some []
  | literal text :: rest => (texts? rest).map (text :: ·)
  | _ => none

/-- A chain of branches. -/
def chain : List Shape → Shape
  | [] => set []
  | [a] => a
  | a :: rest => alternate a (chain rest)

/-- A choice from branches none of which is a choice itself. -/
def ofBranches (branches : List Shape) : Shape :=
  match characterEdges? branches <|> setEdges? branches with
  | some edges => ofEdges edges
  | none => (texts? branches).elim (chain branches) words

/-- A choice from some shapes, of which a common beginning is not taken out. -/
def merged (shapes : List Shape) : Shape :=
  match shapes.flatMap branches with
  | [a] => a
  | branches => ofBranches branches

/-- How many elements two lists have in common at their beginnings. -/
def commonLength : (as bs : List Shape) → Nat
  | a :: as, b :: bs => if a = b then commonLength as bs + 1 else 0
  | _, _ => 0

/-- The common beginning of some branches, if all of them are sequences. -/
def commonParts : List Shape → List Shape
  | [] => []
  | [concat a rest] => (concat a rest).parts
  | concat a rest :: more =>
    let parts := (concat a rest).parts
    parts.take (commonLength parts (commonParts more))
  | _ => []

/-- A choice from some shapes. What is left of the branches behind their common beginning has no
common beginning. -/
def choice (shapes : List Shape) : Shape :=
  let whole := merged shapes
  match whole.branches with
  | first :: second :: rest =>
    let branches := first :: second :: rest
    let common := commonParts branches
    if common.isEmpty then whole
    else
      let others := branches.map fun branch => sequence (branch.parts.drop common.length)
      sequence (common ++ [merged others])
  | _ => whole

/-! ## Repetitions -/

/-- A repetition. What matches only the empty text need not be matched more than once. -/
def repetition (least : Nat) (most : Option Nat) (greedy : Bool) (a : Shape) : Shape :=
  let (least, most) :=
    if a.maxLength = some 0 then (min least 1, some (min (most.getD 1) 1)) else (least, most)
  if least = 0 ∧ most = some 0 then empty
  else if least = 1 ∧ most = some 1 then a
  else repeated least most greedy a

/-! ## Patterns -/

/-- The shapes of the branches of a pattern. -/
def branchesOf : Pattern → List Shape
  | .empty => [empty]
  | .char chars => [ofEdges chars.edges]
  | .anchor condition => [anchor condition]
  | .group place a => [group place (choice (branchesOf a))]
  | .concat a b => [(choice (branchesOf a)).append (choice (branchesOf b))]
  | .alternate a b => choice (branchesOf a) :: branchesOf b
  | .repeated least most greedy a => [repetition least most greedy (choice (branchesOf a))]

/-- The shape of a pattern. -/
def ofPattern (pattern : Pattern) : Shape := choice (branchesOf pattern)

/-! ## Conditions -/

/-- Whether a condition occurs in a shape. -/
def hasAnchor (condition : Anchor) : Shape → Bool
  | empty | literal _ | set _ | words _ => false
  | anchor a => a = condition
  | group _ a | repeated _ _ _ a => a.hasAnchor condition
  | concat a b | alternate a b => a.hasAnchor condition || b.hasAnchor condition

/-- Whether a shape only matches at a gap, in front of what it matches, that meets a condition. -/
def beginsAt (condition : Anchor) : Shape → Bool
  | empty | literal _ | set _ | words _ => false
  | anchor a => a = condition
  | group _ a => a.beginsAt condition
  | concat a b => a.beginsAt condition || (a.maxLength = some 0 && b.beginsAt condition)
  | alternate a b => a.beginsAt condition && b.beginsAt condition
  | repeated least _ _ a => 0 < least && a.beginsAt condition

/-- Whether a shape only matches if the gap behind what it matches meets a condition. -/
def endsAt (condition : Anchor) : Shape → Bool
  | empty | literal _ | set _ | words _ => false
  | anchor a => a = condition
  | group _ a => a.endsAt condition
  | concat a b => b.endsAt condition || (b.maxLength = some 0 && a.endsAt condition)
  | alternate a b => a.endsAt condition && b.endsAt condition
  | repeated least _ _ a => 0 < least && a.endsAt condition

end Shape

end Reline.Pattern
