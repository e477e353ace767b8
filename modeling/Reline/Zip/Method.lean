/-
  Reline.Zip.Method

  How the data of zip entries is compressed.

  Each method has a number. The number of the method AES says no more than that
  the data is encrypted; the method by which it was compressed before stands in an
  extra field then. An extra field is its kind, the number of bytes of its data,
  and the data; all kinds but that of AES are passed over.
-/

import Reline.Zip.Record

namespace Reline.Zip

/-- How the data of an entry is compressed. -/
inductive Method where
  | stored
  | deflated
  | other (code : Nat)
deriving DecidableEq, Repr

namespace Method

/-- The method with a number. -/
def ofCode : Nat → Method
  | 0 => stored
  | 8 => deflated
  | code => other code

/-- The number of a method. -/
def code : Method → Nat
  | stored => 0
  | deflated => 8
  | other code => code

/-! ## Encrypted data -/

/-- The number of the method of data that is encrypted by AES. -/
def aesCode : Nat := 99

/-- The kind of the extra fields of data that is encrypted by AES. -/
def aesKind : Nat := 0x9901

/-- The number of bytes in such a field. -/
def aesLength : Nat := 7

/-- The method that the data of such a field gives. -/
def ofAesField (data : Bytes) : Except Error Method := do
  if word data 2 2 ≠ 0x4541 then throw .aesVendor
  if word data 0 2 ≠ 1 ∧ word data 0 2 ≠ 2 then throw .aesVersion
  if word data 4 1 = 0 ∨ 3 < word data 4 1 then throw .aesStrength
  return .ofCode (word data 5 2)

/-- The method that the extra fields give, of several the last; `found` stands in front of them. A
field that is cut short ends the search. Behind a field of AES as many bytes as it has are passed
over. -/
def ofExtraFields (found : Option Method) (extra : Bytes) : Except Error (Option Method) :=
  if extra.length < 4 then .ok found
  else
    let length := word extra 2 2
    if word extra 0 2 ≠ aesKind then ofExtraFields found (extra.drop (4 + length))
    else if length ≠ aesLength then .error .aesLength
    else
      let behind := extra.drop 4
      if behind.length < aesLength then .ok found
      else do
        let method ← ofAesField (behind.take aesLength)
        ofExtraFields (some method) (behind.drop (aesLength + aesLength))
termination_by extra.length
decreasing_by all_goals simp only [List.length_drop]; omega

/-- The method of an entry, from the number in its record and its extra fields. -/
def ofRecord (code : Nat) (extra : Bytes) : Except Error Method := do
  match ← ofExtraFields none extra with
  | some method => return method
  | none => if code = aesCode then throw .aesMissing else return .ofCode code

end Method

end Reline.Zip
