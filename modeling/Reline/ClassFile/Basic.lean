/-
  Reline.ClassFile.Basic

  Class files, as far as their line numbers need them.

  A class file is kept as its bytes together with the line entries of its
  methods. Lines may be edited in the entries; writing puts each entry's line
  back at the place where it was read and leaves every other byte alone.
-/

import Reline.Bytes

namespace Reline

/-- One entry of a line number table: from instruction `startPc` on, code stems from `line`. -/
structure LineEntry where
  /-- The offset of the instruction in the body. -/
  startPc : UInt16
  /-- The source line. -/
  line : UInt16
  /-- The position of the line's two bytes in the class file. -/
  offset : Nat
deriving DecidableEq, Repr

/-- The line entries of a method, of all tables of its body in order. -/
structure MethodLines where
  /-- The name of the method. -/
  name : String
  /-- The types of its parameters and its result, in the class file's notation. -/
  descriptor : String
  /-- The entries. -/
  entries : List LineEntry
deriving DecidableEq, Repr

/-- A class file: its bytes and the line entries found in them. -/
structure ClassFile where
  /-- The bytes as they were read. -/
  bytes : Bytes
  /-- The methods in the order of the file. -/
  methods : List MethodLines
deriving DecidableEq, Repr

namespace ClassFile

/-- The line entries of all methods in order. -/
def entries (c : ClassFile) : List LineEntry :=
  c.methods.flatMap MethodLines.entries

/-! ## Editing -/

/-- Changes every line entry by `f`. -/
def mapEntries (f : LineEntry → LineEntry) (c : ClassFile) : ClassFile :=
  { c with methods := c.methods.map fun m => { m with entries := m.entries.map f } }

/-- Changes every line by `f`. -/
def mapLines (f : UInt16 → UInt16) : ClassFile → ClassFile :=
  mapEntries fun e => { e with line := f e.line }

/-- Changes the `index`-th entry of a method list, counted over all methods; a greater index changes
nothing. -/
def modifyNth (f : LineEntry → LineEntry) : (index : Nat) → List MethodLines → List MethodLines
  | _, [] => []
  | index, m :: rest =>
    if index < m.entries.length then
      { m with entries := m.entries.modify index f } :: rest
    else
      m :: modifyNth f (index - m.entries.length) rest

/-- Sets the line of the `index`-th entry, and its instruction offset if one is given. -/
def setEntry (c : ClassFile) (index : Nat) (line : UInt16) (startPc : Option UInt16) : ClassFile :=
  let set (e : LineEntry) : LineEntry := { e with line, startPc := startPc.getD e.startPc }
  { c with methods := modifyNth set index c.methods }

/-! ## Writing -/

/-- Writes the two bytes of an entry's line at its place. -/
def writeLine (bytes : Array UInt8) (e : LineEntry) : Array UInt8 :=
  (bytes.setIfInBounds e.offset (e.line >>> 8).toUInt8).setIfInBounds (e.offset + 1) e.line.toUInt8

/-- The bytes of the class file with the lines that its entries now have. -/
def toBytes (c : ClassFile) : Bytes :=
  (c.entries.foldl writeLine c.bytes.toArray).toList

end ClassFile

end Reline
