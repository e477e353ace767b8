/-
  Reline.Main

  The program.

  A run captures what stands at the places that its command names, lets the
  command work on that, and then carries out the changes. Everything that is
  decided is decided by the command.
-/

import Reline.CommandLine.Run
import Reline.CommandLine.Usage
import Reline.FileSystem.Changes

namespace Reline.Program

open Reline.CommandLine

/-! ## Capturing files -/

/-- The place that a path leads to, all links followed; `none` if there is nothing. -/
def realPlace? (path : String) : IO (Option Location) := do
  try
    return some (FileSystem.Path.names (toString (← IO.FS.realPath path)))
  catch _ =>
    return none

/-- Adds what stands at a place that no link leads to. -/
def captureNode (fs : FileSystem) (location : Location) : IO FileSystem := do
  if (fs.node? location).isSome then
    return fs
  let path := FileSystem.pathOf location
  if (← realPlace? (path ++ "/.")).isSome then
    return fs.putNode location (.directory FileSystem.newDirectoryMode)
  let bytes ← IO.FS.readBinFile path
  let (id, fs) := fs.addData
    { bytes := bytes.data, mode := FileSystem.newFileMode, medium := .disk }
  return fs.putNode location (.file id)

/-- Adds what stands at the places of names below a place that no link leads to. -/
def captureChain (fs : FileSystem) (here : Location) : List String → IO FileSystem
  | [] => return fs
  | name :: rest => do
    let there := here ++ [name]
    captureChain (← captureNode fs there) there rest

/-- Adds what stands at the places that names lead through. -/
def captureNames (fs : FileSystem) (here : Location) : List String → IO FileSystem
  | [] => return fs
  | name :: rest => do
    if name = ".." then
      captureNames fs here.dropLast rest
    else
      let there := here ++ [name]
      match ← realPlace? (FileSystem.pathOf there) with
      | none => return fs
      | some place =>
        if place = there then
          captureNames (← captureNode fs there) there rest
        else
          let fs := fs.putNode there (.link (FileSystem.pathOf place))
          captureNames (← captureChain fs [] place) place rest

/-- Adds what stands at the places that a path leads through. -/
def capturePath (fs : FileSystem) (path : String) : IO FileSystem :=
  let start := if FileSystem.Path.isAbsolute path then [] else fs.current
  captureNames fs start (FileSystem.Path.names path)

/-- The part of the file system that a command can reach. -/
def capture (command : Command) : IO FileSystem := do
  let current := FileSystem.Path.names (toString (← IO.currentDir))
  let fs ← captureChain (.bare current) [] current
  let fs ← command.paths.foldlM capturePath fs
  (command.temporaryPaths fs).foldlM capturePath fs

/-! ## Carrying out changes -/

/-- Carries out a change. -/
def commit : Change → IO Unit
  | .createDirectory path => IO.FS.createDir path
  | .write path bytes => IO.FS.writeBinFile path ⟨bytes⟩
  | .remove path => IO.FS.removeFile path

/-! ## Running -/

/-- Runs an invocation, giving the exit status. -/
def run (invocation : Invocation) : IO UInt32 := do
  let start ← IO.monoMsNow
  let environment : Environment := {
    threads := ← IO.getEnv Settings.threadsVariable
    log := ← IO.getEnv Settings.logVariable
    colors := {
      style := ← IO.getEnv Settings.styleVariable
      plain := ← IO.getEnv Settings.plainVariable
      color := ← IO.getEnv Settings.colorVariable } }
  let files ← capture invocation.command
  let (world, ending) := invocation.run environment (.ofFiles files)
  (files.changesTo world.files).forM commit
  IO.eprint ending.stderr
  IO.print (ending.stdout ((← IO.monoMsNow) - start))
  return ending.exit.toUInt32

end Reline.Program

/-- Runs the program with its arguments. -/
def main (args : List String) : IO UInt32 := do
  match Reline.CommandLine.Invocation.parse args with
  | .error fault =>
    let text := Reline.CommandLine.ofLines fault.report
    if fault.exitStatus = 0 then IO.print text else IO.eprint text
    return fault.exitStatus.toUInt32
  | .ok invocation => Reline.Program.run invocation
