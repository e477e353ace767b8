/-
  Reline.Json.Pretty

  JSON text as it is printed: every element on a line of its own, indented by
  two blanks for each bracket that is open.
-/

namespace Reline.Json

/-- A value to be printed. -/
inductive Tree where
  | number (value : Nat)
  | text (value : String)
  | boolean (value : Bool)
  | list (elements : List Tree)
  | object (fields : List (String × Tree))

/-! ## Strings -/

/-- A hexadecimal digit in lower case. -/
def hexChar (n : Nat) : Char :=
  if n < 10 then Char.ofNat ('0'.toNat + n) else Char.ofNat ('a'.toNat + (n - 10))

/-- A character inside a string: quotes, backslashes and control characters are escaped. -/
def escapeChar (c : Char) : List Char :=
  match c with
  | '"' => ['\\', '"']
  | '\\' => ['\\', '\\']
  | '\x08' => ['\\', 'b']
  | '\x0c' => ['\\', 'f']
  | '\n' => ['\\', 'n']
  | '\r' => ['\\', 'r']
  | '\t' => ['\\', 't']
  | _ =>
    if c < ' ' then ['\\', 'u', '0', '0', hexChar (c.toNat / 16), hexChar (c.toNat % 16)] else [c]

/-- A string in quotes. -/
def quote (text : String) : String :=
  "\"" ++ String.ofList (text.toList.flatMap escapeChar) ++ "\""

/-! ## Values -/

/-- The line break in front of an element inside `depth` open brackets. -/
def breakLine (depth : Nat) : String :=
  "\n" ++ String.ofList (List.replicate (2 * depth) ' ')

/-- Elements in brackets, each on its line; no line for an empty list. -/
def bracket (left right : String) (depth : Nat) (elements : List String) : String :=
  if elements.isEmpty then left ++ right
  else
    left ++ breakLine (depth + 1) ++ ("," ++ breakLine (depth + 1)).intercalate elements
      ++ breakLine depth ++ right

namespace Tree

mutual

/-- The text of a value inside `depth` open brackets. -/
def pretty (depth : Nat) : Tree → String
  | number value => toString value
  | text value => quote value
  | boolean value => if value then "true" else "false"
  | list elements => bracket "[" "]" depth (prettyElements (depth + 1) elements)
  | object fields => bracket "\x7b" "\x7d" depth (prettyFields (depth + 1) fields)

/-- The texts of the elements of a list. -/
def prettyElements (depth : Nat) : List Tree → List String
  | [] => []
  | element :: rest => pretty depth element :: prettyElements depth rest

/-- The texts of the fields of an object. -/
def prettyFields (depth : Nat) : List (String × Tree) → List String
  | [] => []
  | (name, value) :: rest =>
    (quote name ++ ": " ++ pretty depth value) :: prettyFields depth rest

end

end Tree

end Reline.Json
