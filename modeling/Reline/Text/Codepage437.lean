/-
  Reline.Text.Codepage437

  The character set of old zip archives: code page 437, in which every byte is a
  character.
-/

import Reline.Bytes

namespace Reline.Text.Codepage437

/-- The characters of the bytes from 128 on. -/
def upper : Array Char :=
  ("ÇüéâäàåçêëèïîìÄÅÉæÆôöòûùÿÖÜ¢£¥₧ƒáíóúñÑªº¿⌐¬½¼¡«»" ++
    "░▒▓│┤╡╢╖╕╣║╗╝╜╛┐└┴┬├─┼╞╟╚╔╩╦╠═╬╧╨╤╥╙╘╒╓╫╪┘┌█▄▌▐▀" ++
    "αßΓπΣσµτΦΘΩδ∞φε∩≡±≥≤⌠⌡÷≈°∙·√ⁿ²■\u00A0").toList.toArray

/-- The character of a byte. -/
def decodeByte (b : UInt8) : Char :=
  if b < 128 then Char.ofNat b.toNat else upper.getD (b.toNat - 128) ' '

/-- The text of a byte sequence. -/
def decode (bytes : Bytes) : String :=
  String.ofList (bytes.map decodeByte)

end Reline.Text.Codepage437
