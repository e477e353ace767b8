/-
  Reline.FileSystem.Resolve

  Finding the place that a path names.

  A path is followed segment by segment from the root or the current directory.
  A link in the middle is always followed, one at the end unless the entry itself
  is meant; more than forty links are refused. The last segment may name nothing
  yet: then the place is vacant. A slash behind the last name asks for a
  directory, so that no file is created under such a name, whether it stands at
  the end of the path or of a link.
-/

import Reline.FileSystem.Basic
import Reline.FileSystem.Path

namespace Reline.FileSystem

/-- The greatest number of bytes of a name. -/
def nameLimit : Nat := 255

/-- The number of bytes from which on a path is refused. -/
def pathLimit : Nat := 4096

/-- How many links are followed. -/
def linkLimit : Nat := 40

/-- What a path is followed for. -/
inductive Purpose where
  /-- To use what is there. -/
  | inspect
  /-- To create a file, or to empty the one that is there. -/
  | create
  /-- To add, remove or move the entry with the last name in its directory. -/
  | entry
deriving DecidableEq, Repr

/-- What a path names. `slash` says whether a slash follows the last name. -/
inductive Target where
  /-- Something that is there. -/
  | found (location : Location) (node : Node) (slash : Bool)
  /-- A place in a directory that is there. -/
  | vacant (location : Location) (slash : Bool)
deriving DecidableEq, Repr

/-- Follows segments from a directory. `links` more links may be followed, and `steps` bounds the
segments of all of them together. -/
def follow (fs : FileSystem) (purpose : Purpose) :
    (links steps : Nat) → (here : Location) → List String → Except OsError Target
  | _, _, here, [] =>
    match fs.node? here with
    | some node => .ok (.found here node false)
    | none => .error .notFound
  | _, 0, _, _ :: _ => .error .nameTooLong
  | links, steps + 1, here, segment :: rest =>
    if Path.isNeutral segment then fs.follow purpose links steps here rest
    else if segment = ".." then fs.follow purpose links steps here.dropLast rest
    else
      let there := here ++ [segment]
      let slash := !rest.isEmpty
      let final := rest.all (· = "")
      if final && slash && purpose = .create then .error .isDirectory
      else if nameLimit < segment.utf8ByteSize then .error .nameTooLong
      else
        match fs.node? there with
        | none => if final then .ok (.vacant there slash) else .error .notFound
        | some (.directory mode) =>
          if final then .ok (.found there (.directory mode) slash)
          else fs.follow purpose links steps there rest
        | some (.file id) =>
          if slash && !(final && purpose = .entry) then .error .notDirectory
          else .ok (.found there (.file id) slash)
        | some (.link target) =>
          if final && purpose = .entry then .ok (.found there (.link target) slash)
          else
            match links with
            | 0 => .error .linkLoop
            | links + 1 =>
              let start := if Path.isAbsolute target then [] else here
              fs.follow purpose links steps start (Path.segments target ++ rest)

/-- The bound on all segments that one path can lead through. -/
def stepLimit : Nat := (linkLimit + 1) * pathLimit

/-- Finds what a path names. -/
def resolve (fs : FileSystem) (purpose : Purpose) (path : String) : Except IoError Target :=
  if path.toList.contains '\x00' then .error .nulByte
  else if path = "" then .error (.os .notFound)
  else if pathLimit ≤ path.utf8ByteSize then .error (.os .nameTooLong)
  else
    let start := if Path.isAbsolute path then [] else fs.current
    (fs.follow purpose linkLimit stepLimit start (Path.segments path)).mapError .os

/-- Finds something that is there. -/
def inspect (fs : FileSystem) (path : String) : Except IoError (Location × Node) := do
  match ← fs.resolve .inspect path with
  | .found location node _ => return (location, node)
  | .vacant .. => throw (.os .notFound)

/-- The path of a place. -/
def pathOf (location : Location) : String :=
  "/" ++ Path.ofSegments location

/-- The path of the place that a path names, which has to be there. -/
def canonical (fs : FileSystem) (path : String) : Except IoError String := do
  let (location, _) ← fs.inspect path
  return pathOf location

end Reline.FileSystem
