/-
  Reline.Proofs.ClassFile.Layout

  The grammar of class files, as far as their line numbers need it.

  A layout is a class file taken apart: its constants, and the tree of fields,
  methods and attributes down to the entries of line number tables. What the
  format demands of the parts is carried by their types: a count or a declared
  length fits its word, a name refers to a text of the pool, and an attribute is
  a body or a table exactly where its name says so. Every layout spells a
  sequence of pieces, and by them its bytes and its line entries.
-/

import Reline.Proofs.ClassFile.Piece
import Reline.Text.Utf8

namespace Reline.ClassFile

/-! ## Building blocks -/

/-- A block of `n` bytes. -/
structure Block (n : Nat) where
  bytes : Bytes
  length_bytes : bytes.length = n

/-- Bytes whose number fits a word of four bytes. -/
structure Sized where
  bytes : Bytes
  length_lt : bytes.length < 4294967296

/-- The number of the bytes, and the bytes. -/
def Sized.encode (sized : Sized) : Bytes :=
  Bytes.ofNatBE 4 sized.bytes.length ++ sized.bytes

/-- Rows of `n` bytes each, as many as a word says. -/
structure Rows (n : Nat) where
  count : UInt16
  bytes : Bytes
  length_bytes : bytes.length = count.toNat * n

/-- The number of the rows, and the rows. -/
def Rows.encode {n : Nat} (rows : Rows n) : Bytes :=
  Piece.word rows.count ++ rows.bytes

/-- Items whose number fits a word. -/
structure Counted (α : Type) where
  items : List α
  length_lt : items.length < 65536

namespace Counted

variable {α : Type}

/-- The number of the items. -/
def count (counted : Counted α) : UInt16 :=
  UInt16.ofNat counted.items.length

@[simp] theorem toNat_count (counted : Counted α) : counted.count.toNat = counted.items.length := by
  rw [count, UInt16.toNat_ofNat', Nat.mod_eq_of_lt counted.length_lt]

/-- The number of the items, and the bytes of the items. -/
def encode (spell : α → Bytes) (counted : Counted α) : Bytes :=
  Piece.word counted.count ++ counted.items.flatMap spell

/-- The number of the items, and the pieces of the items. -/
def pieces (spell : α → List Piece) (counted : Counted α) : List Piece :=
  .plain (Piece.word counted.count) :: counted.items.flatMap spell

theorem encode_pieces (spell : α → List Piece) (counted : Counted α) :
    Piece.encode (counted.pieces spell) = counted.encode fun item => Piece.encode (spell item) := by
  rw [pieces, Piece.encode_plain, Piece.encode, List.flatMap_assoc]
  rfl

end Counted

/-! ## The constant pool -/

/-- The number of bytes behind the tag of a constant that is no text. -/
def payloadLength : UInt8 → Option Nat
  | 7 | 8 | 16 | 19 | 20 => some 2
  | 15 => some 3
  | 3 | 4 | 9 | 10 | 11 | 12 | 17 | 18 => some 4
  | 5 | 6 => some 8
  | _ => none

/-- A constant as it stands in the file. -/
inductive PoolConstant where
  /-- A text. -/
  | text (bytes : Bytes) (length_lt : bytes.length < 65536)
  /-- A constant of another kind. -/
  | other (tag : UInt8) (payload : Bytes) (length_payload : payloadLength tag = some payload.length)

namespace PoolConstant

/-- The bytes of a constant. -/
def encode : PoolConstant → Bytes
  | text bytes _ => 1 :: (Piece.word (UInt16.ofNat bytes.length) ++ bytes)
  | other tag payload _ => tag :: payload

/-- The number of slots that a constant takes. -/
def slots : PoolConstant → Nat
  | text .. => 1
  | other tag .. => if tag = 5 ∨ tag = 6 then 2 else 1

/-- The bytes of a text. -/
def text? : PoolConstant → Option Bytes
  | text bytes _ => some bytes
  | other .. => none

end PoolConstant

/-- The number of slots that constants take. -/
def slotCount (constants : List PoolConstant) : Nat :=
  (constants.map PoolConstant.slots).sum

/-- Whether a pool with a count can hold constants: the count is one more than their slots. The
second slot of a last constant of two slots may be left out, and a count of zero stands for no
constants. -/
def Holds (count : Nat) (constants : List PoolConstant) : Prop :=
  count = 1 + slotCount constants ∨ (count = 0 ∧ constants = [])
    ∨ (count = slotCount constants ∧ ∃ last ∈ constants.getLast?, last.slots = 2)

/-- The constant pool of a class file. -/
structure Pool where
  count : UInt16
  constants : List PoolConstant
  holds : Holds count.toNat constants

namespace Pool

/-- The text of the constant that begins at a slot, given the first slot of the constants. -/
def textFrom (first : Nat) : List PoolConstant → (slot : Nat) → Option Bytes
  | [], _ => none
  | constant :: rest, slot =>
    if slot = first then constant.text? else textFrom (first + constant.slots) rest slot

/-- The text at a slot. -/
def text? (pool : Pool) (index : UInt16) : Option Bytes :=
  textFrom 1 pool.constants index.toNat

/-- The bytes of the pool. -/
def encode (pool : Pool) : Bytes :=
  Piece.word pool.count ++ pool.constants.flatMap PoolConstant.encode

end Pool

/-- A reference to a text of a pool. -/
structure Name (pool : Pool) where
  index : UInt16
  text : Bytes
  text_eq : pool.text? index = some text

/-! ## Attributes -/

/-- An attribute whose name and contents do not matter. -/
structure Attribute where
  name : UInt16
  contents : Sized

/-- The bytes of the attribute. -/
def Attribute.encode (a : Attribute) : Bytes :=
  Piece.word a.name ++ a.contents.encode

variable (pool : Pool)

/-- An attribute of the body of a method. -/
inductive BodyAttribute where
  /-- A line number table: pairs of an instruction offset and a line. -/
  | table (name : Name pool) (named : name.text = Text.Utf8.encode "LineNumberTable")
    (entries : Counted (UInt16 × UInt16))
  /-- Any other attribute. -/
  | other (name : Name pool) (named : name.text ≠ Text.Utf8.encode "LineNumberTable")
    (contents : Sized)

/-- The body of a method: its limits, code, exception handlers and attributes. -/
structure Body where
  limits : Block 4
  code : Sized
  handlers : Rows 8
  attributes : Counted (BodyAttribute pool)

variable {pool}

/-- The piece of a pair of an instruction offset and a line. -/
def entryPieces (pair : UInt16 × UInt16) : List Piece :=
  [.entry pair.1 pair.2]

/-- The pieces of the attribute. -/
def BodyAttribute.pieces : BodyAttribute pool → List Piece
  | table name _ entries =>
    .plain (Piece.word name.index ++ Bytes.ofNatBE 4 (2 + entries.items.length * 4))
      :: entries.pieces entryPieces
  | other name _ contents => [.plain (Piece.word name.index ++ contents.encode)]

/-- The pieces of the body. -/
def Body.pieces (body : Body pool) : List Piece :=
  .plain (body.limits.bytes ++ body.code.encode ++ body.handlers.encode)
    :: body.attributes.pieces BodyAttribute.pieces

/-- The number of bytes of the body. -/
def Body.length (body : Body pool) : Nat :=
  (Piece.encode body.pieces).length

/-! ## Fields and methods -/

/-- A field: six bytes, and attributes that do not matter. -/
structure Field where
  header : Block 6
  attributes : Counted Attribute

/-- The bytes of the field. -/
def Field.encode (field : Field) : Bytes :=
  field.header.bytes ++ field.attributes.encode Attribute.encode

variable (pool)

/-- An attribute of a method. -/
inductive MethodAttribute where
  /-- The body, which declares its true length. -/
  | code (name : Name pool) (named : name.text = Text.Utf8.encode "Code") (body : Body pool)
    (length_lt : body.length < 4294967296)
  /-- Any other attribute. -/
  | other (name : Name pool) (named : name.text ≠ Text.Utf8.encode "Code")
    (contents : Sized)

/-- A method: its flags, name, descriptor and attributes. -/
structure Method where
  flags : Block 2
  name : Name pool
  descriptor : Name pool
  attributes : Counted (MethodAttribute pool)

variable {pool}

/-- The pieces of the attribute. -/
def MethodAttribute.pieces : MethodAttribute pool → List Piece
  | code name _ body _ =>
    .plain (Piece.word name.index ++ Bytes.ofNatBE 4 body.length) :: body.pieces
  | other name _ contents => [.plain (Piece.word name.index ++ contents.encode)]

/-- The pairs of an instruction offset and a line that the attribute holds. -/
def BodyAttribute.pairs : BodyAttribute pool → List (UInt16 × UInt16)
  | table _ _ entries => entries.items
  | other .. => []

/-- The pairs of all line number tables of the attribute. -/
def MethodAttribute.pairs : MethodAttribute pool → List (UInt16 × UInt16)
  | code _ _ body _ => body.attributes.items.flatMap BodyAttribute.pairs
  | other .. => []

namespace Method

/-- The pieces of the method. -/
def pieces (method : Method pool) : List Piece :=
  .plain (method.flags.bytes ++ Piece.word method.name.index ++ Piece.word method.descriptor.index)
    :: method.attributes.pieces MethodAttribute.pieces

/-- The lines of the method when it stands at a position. -/
def lines (method : Method pool) (position : Nat) : MethodLines where
  name := Text.Utf8.decodeReplacing method.name.text
  descriptor := Text.Utf8.decodeReplacing method.descriptor.text
  entries := Piece.entries position method.pieces

/-- The pairs of all line number tables of the method, in order. -/
def pairs (method : Method pool) : List (UInt16 × UInt16) :=
  method.attributes.items.flatMap MethodAttribute.pairs

/-- The lines of methods, the first of which stands at a position. -/
def linesFrom (position : Nat) : List (Method pool) → List MethodLines
  | [] => []
  | method :: rest =>
    method.lines position :: linesFrom (position + (Piece.encode method.pieces).length) rest

end Method

/-! ## Class files -/

/-- A class file, taken apart. -/
structure Layout where
  /-- The version of the format. -/
  version : Block 4
  pool : Pool
  /-- The flags, and the names of the class and the one above it. -/
  header : Block 6
  interfaces : Rows 2
  fields : Counted Field
  methods : Counted (Method pool)
  attributes : Counted Attribute

namespace Layout

/-- The signature that opens every class file. -/
def signature : Bytes := [0xCA, 0xFE, 0xBA, 0xBE]

/-- The bytes in front of the number of methods. -/
def preamble (layout : Layout) : Bytes :=
  signature ++ layout.version.bytes ++ layout.pool.encode ++ layout.header.bytes
    ++ layout.interfaces.encode ++ layout.fields.encode Field.encode

/-- The pieces of a class file. -/
def pieces (layout : Layout) : List Piece :=
  .plain layout.preamble :: layout.methods.pieces Method.pieces
    ++ [.plain (layout.attributes.encode Attribute.encode)]

/-- The bytes of a class file. -/
def encode (layout : Layout) : Bytes :=
  Piece.encode layout.pieces

theorem encode_eq (layout : Layout) :
    layout.encode = layout.preamble ++ layout.methods.encode (fun m => Piece.encode m.pieces)
      ++ layout.attributes.encode Attribute.encode := by
  simp only [encode, pieces, Piece.encode_append, Piece.encode_plain, Piece.encode_nil,
    Counted.encode_pieces, List.append_nil]

/-- The lines of the methods of a class file. -/
def methodLines (layout : Layout) : List MethodLines :=
  Method.linesFrom (layout.preamble.length + 2) layout.methods.items

end Layout

end Reline.ClassFile
