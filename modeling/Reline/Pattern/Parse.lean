/-
  Reline.Pattern.Parse

  Patterns from text.
-/

import Reline.Pattern.Depth
import Reline.Pattern.Meaning
import Reline.Pattern.Size

namespace Reline

namespace Pattern

/-- The number of bytes that the automaton of a pattern may take. -/
def sizeLimit : Nat := 10485760

/-- Why a text gives no pattern. -/
inductive Error where
  /-- The text breaks a rule. -/
  | malformed (fault : Fault)
  /-- The automaton of the pattern would be too large. -/
  | tooLarge
  /-- The letters beyond ASCII are not known. -/
  | noLetters
deriving DecidableEq, Repr

/-- What is reported of a text that gives no pattern. -/
def Error.message (text : String) : Error → String
  | malformed fault => fault.report text
  | tooLarge => s!"Compiled regex exceeds size limit of {sizeLimit} bytes."
  | noLetters => "error building NFA"

/-- The pattern that a text spells. -/
def parse (text : String) : Except Error Pattern := do
  let term ← (Term.ofString text).mapError .malformed
  (term.checkDepth 0).mapError .malformed
  let (pattern, _) ← (term.meaning .default).mapError .malformed
  let shape := Shape.ofPattern pattern
  if sizeLimit < shape.size .forward then throw .tooLarge
  else if shape.hasAnchor .unicodeWord then throw .noLetters
  else if sizeLimit < shape.size .backward then throw .tooLarge
  else return pattern

end Pattern

end Reline
