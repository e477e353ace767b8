/-
  Reline.Text.Utf8

  Text as UTF-8: strict decoding, and decoding that replaces what is malformed.

  Both read one scalar value at a time with the same step, `Utf8.next`. The step
  either finds a scalar value or the length of the maximal prefix that could
  still have begun one; the replacing decoder writes one U+FFFD for each such
  prefix.
-/

import Reline.Bytes

namespace Reline.Text.Utf8

/-- What stands at the head of a non-empty byte sequence. -/
inductive Head where
  /-- A scalar value and the number of bytes that encode it. -/
  | scalar (c : Char) (width : Nat)
  /-- Malformed: the first `width` bytes are replaced together. -/
  | malformed (width : Nat)

/-- A continuation byte. -/
def isContinuation (b : UInt8) : Bool :=
  0x80 ≤ b && b ≤ 0xBF

/-- The range of the second byte that may follow a lead byte of a longer sequence; it excludes
overlong forms, surrogates and values above U+10FFFF. -/
def secondRange (lead : UInt8) : UInt8 × UInt8 :=
  if lead = 0xE0 then (0xA0, 0xBF)
  else if lead = 0xED then (0x80, 0x9F)
  else if lead = 0xF0 then (0x90, 0xBF)
  else if lead = 0xF4 then (0x80, 0x8F)
  else (0x80, 0xBF)

/-- How many bytes a sequence with this lead byte has; zero if the byte leads none. -/
def sequenceWidth (lead : UInt8) : Nat :=
  if lead < 0x80 then 1
  else if lead < 0xC2 then 0
  else if lead < 0xE0 then 2
  else if lead < 0xF0 then 3
  else if lead < 0xF5 then 4
  else 0

/-- The six payload bits of a continuation byte. -/
def payload (b : UInt8) : Nat :=
  b.toNat % 64

/-- Reads the head of the sequence `lead :: rest`. -/
def next (lead : UInt8) (rest : Bytes) : Head :=
  match sequenceWidth lead with
  | 1 => .scalar (Char.ofNat lead.toNat) 1
  | 2 =>
    match rest with
    | b :: _ =>
      if isContinuation b then .scalar (Char.ofNat (lead.toNat % 32 * 64 + payload b)) 2
      else .malformed 1
    | [] => .malformed 1
  | 3 =>
    let (lo, hi) := secondRange lead
    match rest with
    | b :: more =>
      if lo ≤ b && b ≤ hi then
        match more with
        | c :: _ =>
          if isContinuation c then
            .scalar (Char.ofNat ((lead.toNat % 16 * 64 + payload b) * 64 + payload c)) 3
          else .malformed 2
        | [] => .malformed 2
      else .malformed 1
    | [] => .malformed 1
  | 4 =>
    let (lo, hi) := secondRange lead
    match rest with
    | b :: more =>
      if lo ≤ b && b ≤ hi then
        match more with
        | c :: last =>
          if isContinuation c then
            match last with
            | d :: _ =>
              if isContinuation d then
                .scalar (Char.ofNat
                  (((lead.toNat % 8 * 64 + payload b) * 64 + payload c) * 64 + payload d)) 4
              else .malformed 3
            | [] => .malformed 3
          else .malformed 2
        | [] => .malformed 2
      else .malformed 1
    | [] => .malformed 1
  | _ => .malformed 1

/-- Decodes, giving the characters in reverse; `none` if a byte is malformed. -/
def decodeOnto (onto : List Char) (bytes : Bytes) : Option (List Char) :=
  match bytes with
  | [] => some onto
  | lead :: rest =>
    match next lead rest with
    | .scalar c width => decodeOnto (c :: onto) (rest.drop (width - 1))
    | .malformed _ => none
termination_by bytes.length
decreasing_by simp only [List.length_drop, List.length_cons]; omega

/-- The text that the bytes encode; `none` unless they are well-formed UTF-8. -/
def decode? (bytes : Bytes) : Option String :=
  (decodeOnto [] bytes).map fun cs => String.ofList cs.reverse

/-- Decodes with replacement, giving the characters in reverse. -/
def replaceOnto (onto : List Char) (bytes : Bytes) : List Char :=
  match bytes with
  | [] => onto
  | lead :: rest =>
    match next lead rest with
    | .scalar c width => replaceOnto (c :: onto) (rest.drop (width - 1))
    | .malformed width => replaceOnto ('\uFFFD' :: onto) (rest.drop (width - 1))
termination_by bytes.length
decreasing_by all_goals simp only [List.length_drop, List.length_cons]; omega

/-- The text that the bytes encode, with one U+FFFD for each malformed prefix. -/
def decodeReplacing (bytes : Bytes) : String :=
  String.ofList (replaceOnto [] bytes).reverse

/-- The bytes of a text. -/
def encode (text : String) : Bytes :=
  text.toUTF8.data.toList

/-- The number of bytes of a text. -/
def byteLength (chars : List Char) : Nat :=
  chars.foldl (fun n c => n + c.utf8Size) 0

end Reline.Text.Utf8
