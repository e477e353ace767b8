/-
  Reline.ClassFile.Read

  Reading a class file for its line entries.

  The file is walked once from start to end. Names are looked up in the
  constant pool; an attribute named `Code` in a method is entered, an attribute
  named `LineNumberTable` in a body is entered, and all else is passed over by
  its declared length.
-/

import Reline.ClassFile.Basic
import Reline.ClassFile.ConstantPool
import Reline.Text.Utf8

namespace Reline.ClassFile

/-! ## Attributes that are passed over -/

/-- Passes over one attribute. -/
def skipAttribute : Reader Unit := do
  Reader.skip 2
  Reader.skip (← Reader.u4)

/-- Passes over a list of attributes. -/
def skipAttributes : Reader Unit := do
  Reader.iterate (fun () => skipAttribute) (← Reader.u2).toNat ()

/-- Passes over one field. -/
def skipField : Reader Unit := do
  Reader.skip 6
  skipAttributes

/-! ## Line number tables

The entries found so far are carried along, the latest first. -/

/-- One entry of a table. -/
def readEntry (found : List LineEntry) : Reader (List LineEntry) := do
  let startPc ← Reader.u2
  let offset ← Reader.position
  let line ← Reader.u2
  return { startPc, line, offset } :: found

/-- The contents of a table that declares a length. -/
def readTable (declared : Nat) (found : List LineEntry) : Reader (List LineEntry) := do
  let count := (← Reader.u2).toNat
  let actual := 2 + count * 4
  if actual ≠ declared then
    throw (.attributeLength .lineNumberTable declared actual)
  Reader.iterate readEntry count found

/-! ## Method bodies -/

/-- One attribute of a body. -/
def readBodyAttribute (pool : ConstantPool) (found : List LineEntry) : Reader (List LineEntry) := do
  let name ← pool.text (← Reader.u2)
  let length ← Reader.u4
  if name = Text.Utf8.encode MeasuredAttribute.lineNumberTable.name then
    readTable length found
  else
    Reader.skip length
    return found

/-- The contents of a body that declares a length. -/
def readBody (pool : ConstantPool) (declared : Nat) (found : List LineEntry) :
    Reader (List LineEntry) := do
  let start ← Reader.position
  Reader.skip 4
  Reader.skip (← Reader.u4)
  Reader.skip ((← Reader.u2).toNat * 8)
  let found ← Reader.iterate (readBodyAttribute pool) (← Reader.u2).toNat found
  let actual := (← Reader.position) - start
  if actual ≠ declared then
    throw (.attributeLength .code declared actual)
  return found

/-! ## Methods -/

/-- One attribute of a method. -/
def readMethodAttribute (pool : ConstantPool) (found : List LineEntry) :
    Reader (List LineEntry) := do
  let name ← pool.text (← Reader.u2)
  let length ← Reader.u4
  if name = Text.Utf8.encode MeasuredAttribute.code.name then
    readBody pool length found
  else
    Reader.skip length
    return found

/-- One method, put before the methods found so far. -/
def readMethod (pool : ConstantPool) (found : List MethodLines) : Reader (List MethodLines) := do
  Reader.skip 2
  let name ← pool.text (← Reader.u2)
  let descriptor ← pool.text (← Reader.u2)
  let entries ← Reader.iterate (readMethodAttribute pool) (← Reader.u2).toNat []
  return {
    name := Text.Utf8.decodeReplacing name
    descriptor := Text.Utf8.decodeReplacing descriptor
    entries := entries.reverse } :: found

/-! ## The whole file -/

/-- The signature that opens every class file. -/
def magic : Nat := 0xCAFEBABE

/-- The methods of a class file that reaches to the end of the bytes. -/
def readMethods : Reader (List MethodLines) := do
  let found ← Reader.u4
  if found ≠ magic then
    throw (.badMagic found)
  Reader.skip 4
  let pool ← ConstantPool.read
  Reader.skip 6
  Reader.skip ((← Reader.u2).toNat * 2)
  Reader.iterate (fun () => skipField) (← Reader.u2).toNat ()
  let methods ← Reader.iterate (readMethod pool) (← Reader.u2).toNat []
  skipAttributes
  let left := (← get).remaining
  if left ≠ 0 then
    throw (.trailingBytes left)
  return methods.reverse

/-- The class file that the bytes spell, or the first fault in them. -/
def parse (bytes : Bytes) : Except FormatError ClassFile := do
  let (methods, _) ← readMethods.run (Cursor.start bytes)
  return { bytes, methods }

end Reline.ClassFile
