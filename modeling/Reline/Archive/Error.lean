/-
  Reline.Archive.Error

  Why an archive cannot be opened, read, written or closed.
-/

import Reline.Failure
import Reline.Zip.Error

namespace Reline.Archive

/-- A fault of an archive at a path. -/
inductive Error where
  /-- There is no file at the path. -/
  | archiveNotFound (path : String)
  /-- The archive has no entry of a name. -/
  | entryNotFound (path entry : String)
  /-- The archive is closed. -/
  | closed (path : String)
  /-- Reading or writing the file failed. -/
  | io (path : String) (cause : IoError)
  /-- The file is no archive that can be read. -/
  | zip (path : String) (cause : Zip.Error)
deriving DecidableEq, Repr

namespace Error

/-- The fault of a zip archive at a path; one of input and output counts as such. -/
def ofZip (path : String) : Zip.Error → Error
  | .io cause => io path cause
  | cause => zip path cause

/-- The text of the fault. -/
def message : Error → String
  | archiveNotFound path => s!"archive not found: {path}"
  | entryNotFound path entry => s!"entry {entry} not found in {path}"
  | closed path => s!"archive {path} is closed"
  | io path cause => s!"I/O error on {path}: {cause.message}"
  | zip path cause => s!"invalid zip structure in {path}: {cause.message}"

/-- The failure to report; a cause that the text already ends with is reported once more. -/
def failure : Error → Failure
  | io path cause => .during (message (io path cause)) (.ofText cause.message)
  | zip path cause => .during (message (zip path cause)) (.ofText cause.message)
  | e => .ofText e.message

end Error

/-- An archive that could not be closed. -/
structure CloseFailure where
  /-- The path under which the archive was registered. -/
  path : String
  /-- Why it could not be closed. -/
  error : Error
deriving DecidableEq, Repr

/-- The text of the failure to close several archives. -/
def closeFailuresMessage (failures : List CloseFailure) : String :=
  let texts := "; ".intercalate (failures.map (·.error.message))
  s!"failed to close {failures.length} archive(s): {texts}"

end Reline.Archive
