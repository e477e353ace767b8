/-
  Reline.IoError

  Errors of input and output: those an operating system reports, and those of
  reading data.
-/

namespace Reline

/-- An error that an operating system reports. -/
inductive OsError where
  | notFound
  | alreadyExists
  | noDevice
  | notDirectory
  | isDirectory
  | invalidArgument
  | noSpace
  | nameTooLong
  | linkLoop
deriving DecidableEq, Repr

namespace OsError

/-- The number of the error. -/
def code : OsError → Nat
  | notFound => 2
  | alreadyExists => 17
  | noDevice => 19
  | notDirectory => 20
  | isDirectory => 21
  | invalidArgument => 22
  | noSpace => 28
  | nameTooLong => 36
  | linkLoop => 40

/-- The text of the error without its number. -/
def text : OsError → String
  | notFound => "No such file or directory"
  | alreadyExists => "File exists"
  | noDevice => "No such device"
  | notDirectory => "Not a directory"
  | isDirectory => "Is a directory"
  | invalidArgument => "Invalid argument"
  | noSpace => "No space left on device"
  | nameTooLong => "File name too long"
  | linkLoop => "Too many levels of symbolic links"

/-- The text of the error. -/
def message (e : OsError) : String :=
  s!"{e.text} (os error {e.code})"

end OsError

/-- An error of input or output. -/
inductive IoError where
  /-- The operating system reports it. -/
  | os (e : OsError)
  /-- A path contains a NUL character. -/
  | nulByte
  /-- A path to make absolute is empty. -/
  | emptyPath
  /-- A file ends inside a record. -/
  | endOfFile
  /-- Compressed data does not follow its format. -/
  | corruptDeflate
  /-- Compressed data ends inside the stream. -/
  | incompleteDeflate
  /-- Data differs from its checksum. -/
  | invalidChecksum
deriving DecidableEq, Repr

namespace IoError

/-- The text of the error. -/
def message : IoError → String
  | os e => e.message
  | nulByte => "file name contained an unexpected NUL byte"
  | emptyPath => "cannot make an empty path absolute"
  | endOfFile => "failed to fill whole buffer"
  | corruptDeflate => "corrupt deflate stream"
  | incompleteDeflate => "incomplete deflate stream"
  | invalidChecksum => "Invalid checksum"

instance : Coe OsError IoError := ⟨os⟩

end IoError

end Reline
