/-
  Reline.Text.Blank

  White space in the sense of the Unicode property White_Space, and trimming by
  it.
-/

namespace Reline.Text

/-- The ranges of the Unicode property White_Space. -/
def blankRanges : List (Nat × Nat) :=
  [(0x0009, 0x000D), (0x0020, 0x0020), (0x0085, 0x0085), (0x00A0, 0x00A0), (0x1680, 0x1680),
    (0x2000, 0x200A), (0x2028, 0x2029), (0x202F, 0x202F), (0x205F, 0x205F), (0x3000, 0x3000)]

/-- Whether a character has the property White_Space. -/
def isBlank (c : Char) : Bool :=
  blankRanges.any fun (low, high) => low ≤ c.toNat && c.toNat ≤ high

/-- The text without white space at either end. -/
def trim (text : String) : String :=
  let back := (text.toList.dropWhile isBlank).reverse.dropWhile isBlank
  String.ofList back.reverse

/-- Whether a text is white space throughout. -/
def isBlankText (text : String) : Bool :=
  text.toList.all isBlank

end Reline.Text
