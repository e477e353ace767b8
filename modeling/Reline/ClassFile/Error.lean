/-
  Reline.ClassFile.Error

  Why a byte sequence is no class file.
-/

import Reline.Bytes

namespace Reline.ClassFile

/-- The attributes whose declared length is compared with their contents. -/
inductive MeasuredAttribute where
  /-- The body of a method. -/
  | code
  /-- A table of line entries inside a body. -/
  | lineNumberTable
deriving DecidableEq, Repr

/-- The name of the attribute in the constant pool. -/
def MeasuredAttribute.name : MeasuredAttribute → String
  | .code => "Code"
  | .lineNumberTable => "LineNumberTable"

/-- The first fault found in a class file, read from its start. -/
inductive FormatError where
  /-- The first four bytes are not the class file signature. -/
  | badMagic (magic : Nat)
  /-- A read that begins at `offset` lacks `needed` bytes. -/
  | truncated (offset needed : Nat)
  /-- The constant that would occupy slot `index` has an unknown kind. -/
  | badConstantTag (tag : UInt8) (index : Nat)
  /-- A name refers to a slot that holds no text. -/
  | notUtf8 (index : UInt16)
  /-- An attribute's declared length differs from the length of its contents. -/
  | attributeLength (kind : MeasuredAttribute) (declared actual : Nat)
  /-- Bytes follow the last attribute of the class. -/
  | trailingBytes (count : Nat)
deriving DecidableEq, Repr

/-- A word as eight hexadecimal digits, most significant first. -/
def hexWord (word : Nat) : String :=
  let digits := Nat.toDigits 16 word
  String.ofList (List.replicate (8 - digits.length) '0' ++ digits)

/-- The text of the error. -/
def FormatError.message : FormatError → String
  | .badMagic magic => s!"not a class file (magic 0x{hexWord magic})"
  | .truncated offset needed =>
    s!"class file truncated at offset {offset} (needed {needed} more bytes)"
  | .badConstantTag tag index => s!"invalid constant pool tag {tag} at index {index}"
  | .notUtf8 index => s!"constant pool index {index} does not refer to a Utf8 entry"
  | .attributeLength kind declared actual =>
    s!"{kind.name} attribute declares {declared} bytes but contains {actual}"
  | .trailingBytes count => s!"{count} trailing bytes after class structure"

end Reline.ClassFile
