/-
  Reline.ClassUnit

  Units of decompiler output, and their JSON form.

  A unit is the output for one class: its names, its text and, if the
  decompiler knows it, the flat line mapping from compiled to decompiled lines.
  It is written as an object of four fields in any order, or as a list of them
  in this order; the mapping may be missing.
-/

import Reline.Json.Typed

namespace Reline

/-- The decompiler's output for one class. -/
structure ClassUnit where
  /-- The internal name of the class, `com/example/Foo`. -/
  qualifiedName : String
  /-- The entry name of the source, `com/example/Foo.java`. -/
  entryName : String
  /-- The decompiled text. -/
  content : String
  /-- The flat line mapping. -/
  mapping : Option (List Int)
deriving DecidableEq, Repr

namespace ClassUnit

/-- The entry name of the compiled class. -/
def classEntry (unit : ClassUnit) : String :=
  unit.qualifiedName ++ ".class"

/-- What the JSON form of a unit is called in messages. -/
def description : String := "struct DecompileUnit"

/-! ## The fields found so far -/

/-- The fields of a unit. -/
inductive Field where
  | qualifiedName
  | entryName
  | content
  | mapping
deriving DecidableEq, Repr

/-- The name of a field in the JSON form. -/
def Field.name : Field → String
  | qualifiedName => "qualified_name"
  | entryName => "entry_name"
  | content => "content"
  | mapping => "mapping"

/-- The field with a name. -/
def Field.ofName? (name : String) : Option Field :=
  [qualifiedName, entryName, content, mapping].find? fun field => field.name = name

/-- A unit of which some fields are known. -/
structure Draft where
  qualifiedName : Option String
  entryName : Option String
  content : Option String
  mapping : Option (Option (List Int))

namespace Draft

/-- The draft without fields. -/
def empty : Draft := ⟨none, none, none, none⟩

/-- Whether a field is known. -/
def has (draft : Draft) : Field → Bool
  | .qualifiedName => draft.qualifiedName.isSome
  | .entryName => draft.entryName.isSome
  | .content => draft.content.isSome
  | .mapping => draft.mapping.isSome

/-- Reads the value of a field. -/
def readField (draft : Draft) (field : Field) (s : List Char) : Json.Result Draft :=
  match field with
  | .qualifiedName =>
    (Json.readString s).map fun (t, rest) => ({ draft with qualifiedName := some t }, rest)
  | .entryName =>
    (Json.readString s).map fun (t, rest) => ({ draft with entryName := some t }, rest)
  | .content =>
    (Json.readString s).map fun (t, rest) => ({ draft with content := some t }, rest)
  | .mapping =>
    (Json.readOptional Json.readIntegers s).map fun (m, rest) =>
      ({ draft with mapping := some m }, rest)

/-- The unit, or the first field that is missing. -/
def complete (draft : Draft) : Except Field ClassUnit := do
  let some qualifiedName := draft.qualifiedName | throw .qualifiedName
  let some entryName := draft.entryName | throw .entryName
  let some content := draft.content | throw .content
  return { qualifiedName, entryName, content, mapping := draft.mapping.getD none }

end Draft

/-! ## Reading -/

/-- Reads the fields of an object up to its closing bracket. Every turn takes a character. -/
def readFields : (turns : Nat) → (first : Bool) → Draft → List Char → Json.Result Draft
  | 0, _, _, s => Json.failAt .endOfObject s
  | turns + 1, first, draft, s =>
    match Json.nextKey first s with
    | .error e => .error e
    | .ok (none, rest) => .ok (draft, rest)
    | .ok (some key, rest) =>
      match Field.ofName? key with
      | some field =>
        if draft.has field then
          Json.failBefore (.duplicateField field.name) (Json.skipObjectEnd rest)
        else
          match (Json.readColon rest).bind fun ((), rest) => draft.readField field rest with
          | .error e => .error e
          | .ok (draft, rest) => readFields turns false draft rest
      | none =>
        match (Json.readColon rest).bind fun ((), rest) => Json.skipValue rest with
        | .error e => .error e
        | .ok ((), rest) => readFields turns false draft rest

/-- Reads a unit behind the opening bracket of its object. -/
def readObject (s : List Char) : Json.Result ClassUnit :=
  match readFields (s.length + 1) true .empty s with
  | .error e => .error e
  | .ok (draft, rest) =>
    let rest := rest.drop 1
    match draft.complete with
    | .ok unit => .ok (unit, rest)
    | .error field => Json.failBefore (.missingField field.name) rest

/-- Reads the fields of a list as far as there are elements. -/
def readElements : List Field → (read : Nat) → Draft → List Char → Json.Result Draft
  | [], _, draft, s => .ok (draft, s)
  | field :: fields, read, draft, s =>
    match Json.nextElement (read = 0) s with
    | .error e => .error e
    | .ok (true, rest) =>
      match draft.readField field rest with
      | .error e => .error e
      | .ok (draft, rest) => readElements fields (read + 1) draft rest
    | .ok (false, rest) =>
      if field = .mapping then .ok (draft, rest)
      else Json.failBefore (.tooShort read s!"{description} with 4 elements") (rest.drop 1)

/-- Reads a unit behind the opening bracket of its list. -/
def readList (s : List Char) : Json.Result ClassUnit :=
  match readElements [.qualifiedName, .entryName, .content, .mapping] 0 .empty s with
  | .error e => .error e
  | .ok (draft, rest) =>
    match Json.closeList rest with
    | .error e => .error e
    | .ok ((), rest) =>
      match draft.complete with
      | .ok unit => .ok (unit, rest)
      | .error field => Json.failBefore (.missingField field.name) rest

/-- Reads a unit. -/
def read (s : List Char) : Json.Result ClassUnit :=
  match Json.skipSpace s with
  | '{' :: rest => readObject rest
  | '[' :: rest => readList rest
  | rest => Json.failType description rest

/-- The unit that a text spells. -/
def parse (text : String) : Except Json.Error ClassUnit :=
  match read text.toList with
  | .error e => .error e
  | .ok (unit, rest) => (Json.readEnd rest).map fun () => unit

end ClassUnit

end Reline
