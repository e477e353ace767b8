/-
  Reline.Sink.Directory

  A directory that takes each text as a file.

  An entry name may lead through directories below the root, which are created;
  one that leads upwards is refused.
-/

import Reline.Sink.Basic

namespace Reline

/-- The directory below which texts are stored. -/
structure DirectorySink where
  root : String
deriving DecidableEq, Repr

namespace DirectorySink

/-- Why a text cannot be stored. -/
inductive Error where
  /-- The entry name leads upwards. -/
  | outside (root entryName : String)
  /-- A directory cannot be created. -/
  | createDirectory (path : String) (cause : IoError)
  /-- The file cannot be written. -/
  | writeFile (path : String) (cause : IoError)
deriving DecidableEq, Repr

/-- The failure to report. -/
def Error.failure : Error → Failure
  | outside root entryName => .ofText s!"Refusing to write source outside {root}: {entryName}"
  | createDirectory path cause =>
    .during s!"Failed to create directory: {path}" (.ofText cause.message)
  | writeFile path cause =>
    .during s!"Failed to write source file: {path}" (.ofText cause.message)

/-- The path of an entry name relative to the root. -/
def relative (entryName : String) : String :=
  String.ofList (entryName.toList.dropWhile (· = '/'))

/-- Whether a relative path leads upwards somewhere. -/
def leadsUp (path : String) : Bool :=
  (FileSystem.Path.names path).contains ".."

/-- Writes a file and the directories above it. -/
def write (fs : FileSystem) (path content : String) : FileSystem × Except Error Unit :=
  let above := (FileSystem.Path.parent path).getD ""
  match fs.createDirectories above with
  | (fs, .error e) => (fs, .error (.createDirectory above e))
  | (fs, .ok ()) =>
    match fs.putContents path (Text.Utf8.encode content) with
    | (fs, .error e) => (fs, .error (.writeFile path e))
    | (fs, .ok ()) => (fs, .ok ())

/-- Stores a text under an entry name. -/
def save (sink : DirectorySink) (fs : FileSystem) (entryName content : String) :
    FileSystem × Except Error Unit :=
  let path := relative entryName
  if leadsUp path then (fs, .error (.outside sink.root entryName))
  else write fs (FileSystem.Path.join sink.root path) content

instance : TextSink DirectorySink where
  save sink world _ entryName content :=
    let (files, result) := sink.save world.files entryName content
    (sink, world.withFiles files, result.mapError Error.failure)
  close sink world := (sink, world, .ok ())

end DirectorySink

end Reline
