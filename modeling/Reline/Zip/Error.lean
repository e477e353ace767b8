/-
  Reline.Zip.Error

  Why a zip archive, or an entry of it, cannot be read.
-/

import Reline.IoError

namespace Reline.Zip

/-- A fault of a zip archive. -/
inductive Error where
  /-- Data could not be read. -/
  | io (cause : IoError)
  /-- The file is shorter than any archive. -/
  | tooShort
  /-- There is no end record. -/
  | noEndRecord
  /-- The end record places the directory before the file. -/
  | badDirectoryPlace
  /-- A record of the directory has no signature. -/
  | badDirectoryRecord
  /-- The record in front of an entry's data has no signature. -/
  | badLocalRecord
  /-- The archive is split over several disks. -/
  | multipleDisks
  /-- Data is encrypted by AES, but there is no field that says how. -/
  | aesMissing
  /-- The field about AES has another length. -/
  | aesLength
  /-- The field about AES is not by its vendor. -/
  | aesVendor
  /-- The field about AES has an unknown version. -/
  | aesVersion
  /-- The field about AES has an unknown number of key bits. -/
  | aesStrength
  /-- The entry is encrypted. -/
  | encrypted
  /-- The entry is compressed by another method. -/
  | unknownMethod
deriving DecidableEq, Repr

namespace Error

/-- The text of the fault. -/
def message : Error → String
  | io cause => cause.message
  | tooShort => "invalid Zip archive: Invalid zip header"
  | noEndRecord => "invalid Zip archive: Could not find central directory end"
  | badDirectoryPlace => "invalid Zip archive: Invalid central directory size or offset"
  | badDirectoryRecord => "invalid Zip archive: Invalid Central Directory header"
  | badLocalRecord => "invalid Zip archive: Invalid local file header"
  | multipleDisks => "unsupported Zip archive: Support for multi-disk files is not implemented"
  | aesMissing => "invalid Zip archive: AES encryption without AES extra data field"
  | aesLength => "unsupported Zip archive: AES extra data field has an unsupported length"
  | aesVendor => "invalid Zip archive: Invalid AES vendor"
  | aesVersion => "invalid Zip archive: Invalid AES vendor version"
  | aesStrength => "invalid Zip archive: Invalid AES encryption strength"
  | encrypted => "unsupported Zip archive: Password required to decrypt file"
  | unknownMethod => "unsupported Zip archive: Compression method not supported"

end Error

end Reline.Zip
