/-
  Reline.Pattern.Depth

  How deeply the parts of a pattern may stand inside of each other.

  Groups, repetitions, sequences, alternatives and sets count; so do, inside of
  a set, its brackets, its operators and every list of parts. The first part
  that is too deep is the fault.
-/

import Reline.Pattern.Term

namespace Reline.Pattern

/-- The greatest depth of a part. -/
def depthLimit : Nat := 250

/-- The depth inside of a part at a depth. -/
def inside (span : Span) (depth : Nat) : Except Fault Nat :=
  if depth < depthLimit then .ok (depth + 1) else fail (.nestedTooDeeply depthLimit) span

/-- Checks the depth of the parts of a set. A set may be `joined` to the parts behind it; then the
list that they make up has been counted. -/
def SetTerm.checkDepth (depth : Nat) (joined : Bool) (set : SetTerm) : Except Fault Unit :=
  match set with
  | empty _ | letter _ | range .. | perl .. | property .. | named .. => .ok ()
  | bracket span _ body => do body.checkDepth (← inside span depth) false
  | union a b => do
    let depth ← if joined then .ok depth else inside (union a b).span depth
    a.checkDepth depth true
    b.checkDepth depth false
  | combine operator a b => do
    let depth ← inside (combine operator a b).span depth
    a.checkDepth depth false
    b.checkDepth depth false

/-- Checks the depth of the parts of a pattern. -/
def Term.checkDepth (depth : Nat) : Term → Except Fault Unit
  | empty | letter _ | anyChar _ | mark _ | flags _ => .ok ()
  | set s => s.checkDepth depth false
  | group _ body | capture _ body | repeated _ _ _ body => body.checkDepth depth
  | concat a b | alternate a b => do
    a.checkDepth depth
    b.checkDepth depth
  | nested span body => do body.checkDepth (← inside span depth)

end Reline.Pattern
