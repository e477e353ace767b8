/-
  Reline.Text.Quoted

  Texts between quotes, as they are shown in messages.

  Quotes, backslashes and the common controls have escapes of one letter. Every
  other character that does not show, or would join the one in front of it, is
  shown as its code point.
-/

import Reline.Text.GraphemeExtend
import Reline.Text.Printable

namespace Reline.Text

/-- The code point of a character between braces. -/
def codePointEscape (c : Char) : List Char :=
  ['\\', 'u', '{'] ++ Nat.toDigits 16 c.toNat ++ ['}']

/-- The characters that stand for a character between quotes. -/
def quotedChar (c : Char) : List Char :=
  match c with
  | '\x00' => ['\\', '0']
  | '\t' => ['\\', 't']
  | '\r' => ['\\', 'r']
  | '\n' => ['\\', 'n']
  | '\\' | '"' => ['\\', c]
  | _ => if isGraphemeExtend c || ! isPrintable c then codePointEscape c else [c]

/-- A text between quotes. -/
def quoted (text : String) : String :=
  String.ofList ('"' :: (text.toList.flatMap quotedChar ++ ['"']))

end Reline.Text
