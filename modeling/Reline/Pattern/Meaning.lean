/-
  Reline.Pattern.Meaning

  What a pattern means, given the flags in force at each of its parts.

  There are no tables of letters, digits or blanks beyond ASCII, nor of pairs of
  letters. While characters are matched, parts that need such a table are faults;
  while bytes are matched they are confined to ASCII.
-/

import Reline.Pattern.Basic
import Reline.Pattern.Read

namespace Reline.Pattern

/-- The flags in force at a place. -/
structure Flags where
  ignoreCase : Bool
  multiLine : Bool
  dotAll : Bool
  swapGreed : Bool
  unicode : Bool
  crlf : Bool
deriving DecidableEq, Repr

namespace Flags

/-- The flags at the beginning of a pattern. -/
def default : Flags := ⟨false, false, false, false, true, false⟩

/-- The flags with those of a list changed. -/
def update (flags : Flags) (items : List FlagItem) : Flags where
  ignoreCase := (stateOf? .ignoreCase items).getD flags.ignoreCase
  multiLine := (stateOf? .multiLine items).getD flags.multiLine
  dotAll := (stateOf? .dotAll items).getD flags.dotAll
  swapGreed := (stateOf? .swapGreed items).getD flags.swapGreed
  unicode := (stateOf? .unicode items).getD flags.unicode
  crlf := (stateOf? .crlf items).getD flags.crlf

end Flags

/-! ## Properties -/

/-- The name of a property without case, blanks, hyphens, underscores and a leading `is`. -/
def normalName (name : String) : String :=
  let folded := name.toList.map Char.toLower
  let (isPrefixed, folded) := match folded with
    | 'i' :: 's' :: rest => (true, rest)
    | _ => (false, folded)
  let kept := folded.filter fun c => c.toNat < 0x80 && c ≠ ' ' && c ≠ '_' && c ≠ '-'
  if isPrefixed && kept = ['c'] then "isc" else String.ofList kept

/-- The fault of naming a property. Names that can only be those of a value fail as such. -/
def propertyCause (name : String) : Cause :=
  if ["cf", "sc", "lc"].contains (normalName name) then .propertyValueNotFound
  else .propertyNotFound

/-! ## Sets -/

namespace Flags

/-- The set with letters in either case, if case is ignored, and with its complement taken, if it is
negated. A `caseless` set needs no pairs of letters for that. A part of a set at `span` that goes
beyond ASCII is a fault while bytes are matched. -/
def close (flags : Flags) (span : Span) (caseless negated : Bool) (chars : CharSet) :
    Except Fault CharSet :=
  if flags.unicode then
    if flags.ignoreCase && ! caseless then fail .caseUnavailable span
    else .ok (if negated then .complement chars else chars)
  else if negated then fail .invalidUtf8 span
  else .ok (if flags.ignoreCase then .anyCase chars else chars)

/-- A character in a set. -/
def setLetter (flags : Flags) (letter : Letter) : Except Fault Char :=
  if flags.unicode || letter.char.toNat < 0x80 then .ok letter.char
  else fail (if letter.isByte then .invalidUtf8 else .unicodeNotAllowed) letter.span

/-- A class with a letter of its own. -/
def perlClass (flags : Flags) (span : Span) (kind : AsciiClass) (negated : Bool) :
    Except Fault CharSet :=
  if flags.unicode then fail .namedClassNotFound span
  else if negated then fail .invalidUtf8 span
  else .ok kind.chars

/-- A combination of two sets at given places. -/
def combine (flags : Flags) (operator : SetOperator) (aTerm bTerm : SetTerm) (a b : CharSet) :
    Except Fault CharSet :=
  if flags.unicode && flags.ignoreCase && ! bTerm.isCaseless then fail .caseUnavailable bTerm.span
  else if flags.unicode && flags.ignoreCase && ! aTerm.isCaseless then
    fail .caseUnavailable aTerm.span
  else
    let a := if flags.ignoreCase then .anyCase a else a
    let b := if flags.ignoreCase then .anyCase b else b
    .ok <| match operator with
      | .intersection => .inter a b
      | .difference => .inter a (.complement b)
      | .symmetricDifference => .inter (.union a b) (.complement (.inter a b))

end Flags

/-- The characters of a set. -/
def SetTerm.chars (flags : Flags) : SetTerm → Except Fault CharSet
  | empty _ => .ok .empty
  | letter l => (flags.setLetter l).map .single
  | range first last => do
    return .range (← flags.setLetter first) (← flags.setLetter last)
  | perl span kind negated => flags.perlClass span kind negated
  | property span name =>
    fail (if flags.unicode then propertyCause name else .unicodeNotAllowed) span
  | named span kind negated => flags.close span false negated kind.chars
  | bracket span negated body => do
    let chars ← body.chars flags
    flags.close span body.isCaseless negated chars
  | union a b => do
    return .union (← a.chars flags) (← b.chars flags)
  | combine operator a b => do
    flags.combine operator a b (← a.chars flags) (← b.chars flags)

/-! ## Patterns -/

namespace Flags

/-- A character outside a set. -/
def letter (flags : Flags) (letter : Letter) : Except Fault CharSet :=
  let c := letter.char
  if flags.unicode then
    if flags.ignoreCase then fail .caseUnavailable letter.span else .ok (.single c)
  else if letter.isByte && 0x80 ≤ c.toNat then fail .invalidUtf8 letter.span
  else .ok (if flags.ignoreCase then .anyCase (.single c) else .single c)

/-- A dot. -/
def anyChar (flags : Flags) (span : Span) : Except Fault CharSet :=
  if ! flags.unicode then fail .invalidUtf8 span
  else if flags.dotAll then .ok (.complement .empty)
  else if flags.crlf then .ok (.complement (.union (.single '\r') (.single '\n')))
  else .ok (.complement (.single '\n'))

/-- A condition on words, as far as it is known. -/
def word (flags : Flags) (condition : Anchor) : Anchor :=
  if flags.unicode then .unicodeWord else condition

/-- An anchor. -/
def anchor (flags : Flags) : Mark → Anchor
  | .caret => if flags.multiLine then .lineStart flags.crlf else .textStart
  | .dollar => if flags.multiLine then .lineEnd flags.crlf else .textEnd
  | .textStart => .textStart
  | .textEnd => .textEnd
  | .wordEdge => flags.word .wordEdge
  | .noWordEdge => flags.word .noWordEdge
  | .wordStart => flags.word .wordStart
  | .wordEnd => flags.word .wordEnd
  | .wordStartHalf => flags.word .wordStartHalf
  | .wordEndHalf => flags.word .wordEndHalf

end Flags

/-- What a part means under flags, and the flags in force behind it. Flags for the rest of a group
end with the group, not with a branch. -/
def Term.meaning (flags : Flags) : Term → Except Fault (Pattern × Flags)
  | empty => .ok (.empty, flags)
  | letter l => (flags.letter l).map fun chars => (.char chars, flags)
  | anyChar span => (flags.anyChar span).map fun chars => (.char chars, flags)
  | mark m => .ok (.anchor (flags.anchor m), flags)
  | set s => (s.chars flags).map fun chars => (.char chars, flags)
  | .flags items => .ok (.empty, flags.update items)
  | group items body =>
    (body.meaning (flags.update items)).map fun (pattern, _) => (pattern, flags)
  | capture place body =>
    (body.meaning flags).map fun (pattern, _) => (.group place pattern, flags)
  | concat a b => do
    let (a, flags) ← a.meaning flags
    let (b, flags) ← b.meaning flags
    return (.concat a b, flags)
  | alternate a b => do
    let (a, flags) ← a.meaning flags
    let (b, flags) ← b.meaning flags
    return (.alternate a b, flags)
  | repeated least most greedy a => do
    let (a, flags) ← a.meaning flags
    return (.repeated least most (greedy != flags.swapGreed) a, flags)
  | nested _ body => body.meaning flags

end Reline.Pattern
