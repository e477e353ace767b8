/-
  Reline.Pattern.CharSet

  Sets of characters, built from ranges, and the named sets of ASCII characters.
-/

namespace Reline

/-- A set of characters. -/
inductive CharSet where
  | empty
  /-- The characters from `first` to `last`, both included. -/
  | range (first last : Char)
  | union (a b : CharSet)
  | inter (a b : CharSet)
  | complement (a : CharSet)
  /-- The characters of a set together with their ASCII letters in the other case. -/
  | anyCase (a : CharSet)
deriving DecidableEq, Repr

namespace CharSet

/-- An ASCII letter in the other case; any other character as it is. -/
def otherCase (c : Char) : Char :=
  if c.isUpper then c.toLower else c.toUpper

/-- Whether a character belongs to a set. -/
def contains : CharSet → Char → Bool
  | empty, _ => false
  | range first last, c => first ≤ c && c ≤ last
  | union a b, c => a.contains c || b.contains c
  | inter a b, c => a.contains c && b.contains c
  | complement a, c => ! a.contains c
  | anyCase a, c => a.contains c || a.contains (otherCase c)

/-- The set of one character. -/
def single (c : Char) : CharSet := range c c

/-- The characters of some ranges. -/
def ofRanges (ranges : List (Char × Char)) : CharSet :=
  ranges.foldr (fun (first, last) rest => union (range first last) rest) empty

end CharSet

/-- The named sets of ASCII characters. -/
inductive AsciiClass where
  | alnum
  | alpha
  | ascii
  | blank
  | cntrl
  | digit
  | graph
  | lower
  | print
  | punct
  | space
  | upper
  | word
  | xdigit
deriving DecidableEq, Repr

namespace AsciiClass

/-- The class with a name. -/
def ofName? : String → Option AsciiClass
  | "alnum" => some alnum
  | "alpha" => some alpha
  | "ascii" => some ascii
  | "blank" => some blank
  | "cntrl" => some cntrl
  | "digit" => some digit
  | "graph" => some graph
  | "lower" => some lower
  | "print" => some print
  | "punct" => some punct
  | "space" => some space
  | "upper" => some upper
  | "word" => some word
  | "xdigit" => some xdigit
  | _ => none

/-- The characters of a class. -/
def chars : AsciiClass → CharSet
  | alnum => .ofRanges [('0', '9'), ('A', 'Z'), ('a', 'z')]
  | alpha => .ofRanges [('A', 'Z'), ('a', 'z')]
  | ascii => .ofRanges [('\x00', '\x7f')]
  | blank => .ofRanges [('\t', '\t'), (' ', ' ')]
  | cntrl => .ofRanges [('\x00', '\x1f'), ('\x7f', '\x7f')]
  | digit => .ofRanges [('0', '9')]
  | graph => .ofRanges [('!', '~')]
  | lower => .ofRanges [('a', 'z')]
  | print => .ofRanges [(' ', '~')]
  | punct => .ofRanges [('!', '/'), (':', '@'), ('[', '`'), ('{', '~')]
  | space => .ofRanges [('\t', '\r'), (' ', ' ')]
  | upper => .ofRanges [('A', 'Z')]
  | word => .ofRanges [('0', '9'), ('A', 'Z'), ('_', '_'), ('a', 'z')]
  | xdigit => .ofRanges [('0', '9'), ('A', 'F'), ('a', 'f')]

end AsciiClass

end Reline
