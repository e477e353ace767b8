/-
  Reline.CommandLine.Run

  Running a command.

  A command checks its input before it writes anything: `apply` needs a thread
  count and a manifest before it creates the archive of texts, `remap` needs a
  class file and a mapping before it creates a directory, and `lines` writes
  nothing.
-/

import Reline.CommandLine.Command
import Reline.CommandLine.Report
import Reline.Manifest
import Reline.Settings
import Reline.Sink.Zip

namespace Reline.CommandLine

/-! ## Faults -/

/-- Why a command failed. -/
inductive Error where
  /-- The thread count cannot be used. -/
  | threads (cause : Settings.ThreadsError)
  /-- The manifest cannot be opened. -/
  | openManifest (path : String) (cause : IoError)
  /-- The manifest is a directory. -/
  | readManifest (path : String) (cause : IoError)
  /-- The manifest cannot be understood. -/
  | manifest (path : String) (cause : Manifest.Error)
  /-- The archive of texts cannot be created. -/
  | output (cause : ZipSink.Error)
  /-- The batch failed. -/
  | batch (cause : Batch.Error)
  /-- A class file cannot be read. -/
  | readClass (path : String) (cause : IoError)
  /-- The mapping is none. -/
  | mapping (cause : MappingError)
  /-- A class file cannot be remapped. -/
  | remap (path : String) (cause : ClassFile.FormatError)
  /-- The directory of the remapped class cannot be created. -/
  | createDirectory (cause : IoError)
  /-- The remapped class cannot be written. -/
  | writeClass (path : String) (cause : IoError)
  /-- A class cannot be read from its archive. -/
  | archive (cause : Archive.Error)
  /-- An archive that was read cannot be closed. -/
  | closeArchives (failures : List Archive.CloseFailure)
  /-- A class cannot be listed. -/
  | parse (source : String) (cause : ClassFile.FormatError)
deriving DecidableEq, Repr

/-- The failure to report. -/
def Error.failure : Error → Failure
  | threads cause => cause.failure
  | openManifest path cause =>
    .during s!"Failed to open unit manifest: {path}" (.ofText cause.message)
  | readManifest path cause =>
    .during s!"Failed to read unit manifest: {path}" (.ofText cause.message)
  | manifest path cause => .during s!"Failed to read unit manifest: {path}" cause.failure
  | output cause => cause.failure
  | batch cause => cause.failure
  | readClass path cause =>
    .during s!"Failed to read class file: {path}" (.ofText cause.message)
  | mapping cause => .ofText cause.message
  | remap path cause => .during s!"Failed to remap {path}" (.ofText cause.message)
  | createDirectory cause => .ofText cause.message
  | writeClass path cause =>
    .during s!"Failed to write class file: {path}" (.ofText cause.message)
  | archive cause => cause.failure
  | closeArchives failures => .ofText (Archive.closeFailuresMessage failures)
  | parse source cause => .during s!"Failed to parse {source}" (.ofText cause.message)

/-! ## Commands -/

/-- The units of the manifest at a path. -/
def readUnits (fs : FileSystem) (path : String) : Except Error (List ClassUnit) :=
  match fs.openFile path with
  | .error e => .error (.openManifest path e)
  | .ok none => .error (.readManifest path (.os .isDirectory))
  | .ok (some id) => (Manifest.parseUnits (fs.data id).bytes.toList).mapError (.manifest path)

/-- Saves the units of a manifest. -/
def runApply (world : World) (input units output : String) (threads : Option Nat)
    (threadsText : Option String) : World × Except Error Report :=
  match Settings.resolveThreads threads threadsText with
  | .error e => (world, .error (.threads e))
  | .ok _ =>
    match readUnits world.files units with
    | .error e => (world, .error e)
    | .ok units =>
      match ZipSink.create world.files output with
      | (files, .error e) => (world.withFiles files, .error (.output e))
      | (files, .ok sink) =>
        let (_, world, result) := Batch.run input units sink (world.withFiles files)
        (world, (result.mapError .batch).map .batch)

/-- Remaps a class file, giving the file system behind that. -/
def remapFile (fs : FileSystem) (classFile : String) (flat : List Int) (output : Option String) :
    FileSystem × Except Error Report :=
  let checked : Except Error (Bytes × Bytes × RemapReport) := do
    let bytes := (← (fs.contents classFile).mapError (.readClass classFile)).toList
    let m ← (LineMapping.ofFlat flat).mapError .mapping
    let (patched, report) ← (remapClass m bytes).mapError (.remap classFile)
    return (bytes, patched, report)
  match checked with
  | .error e => (fs, .error e)
  | .ok (bytes, patched, report) =>
    let target := output.getD classFile
    match fs.createDirectories ((FileSystem.Path.parent target).getD "") with
    | (fs, .error e) => (fs, .error (.createDirectory e))
    | (fs, .ok ()) =>
      match fs.putContents target patched with
      | (fs, .error e) => (fs, .error (.writeClass target e))
      | (fs, .ok ()) =>
        (fs, .ok (.remapped classFile target (decide (patched ≠ bytes)) report))

/-- The entry of a class in an archive, given its name with dots or slashes. -/
def entryOfName (name : String) : String :=
  String.ofList (name.toList.map fun c => if c = '.' then '/' else c) ++ ".class"

/-- Reads a class out of an archive that is opened for this only. -/
def readMember (world : World) (archive entry : String) : World × Except Error Bytes :=
  match Archive.Store.empty.read world archive entry with
  | (store, world, .error e) => (store.drop world, .error (.archive e))
  | (store, world, .ok bytes) =>
    match store.closeAll world with
    | (_, world, []) => (world, .ok bytes)
    | (_, world, failures) => (world, .error (.closeArchives failures))

/-- The bytes of the class to list, and what they are called. -/
def readSource (world : World) : ClassSource → World × String × Except Error Bytes
  | .file path _ =>
    let bytes := (world.files.contents path).map Array.toList
    (world, path, bytes.mapError (.readClass path))
  | .member archive name =>
    let entry := entryOfName name
    let (world, result) := readMember world archive entry
    (world, s!"{archive}!/{entry}", result)

/-- Lists the line tables of a class. -/
def listLines (world : World) (source : ClassSource) : World × Except Error Report :=
  let (world, name, bytes) := readSource world source
  let result : Except Error Report := do
    let c ← (ClassFile.parse (← bytes)).mapError (.parse name)
    return .lines name c.methods
  (world, result)

/-- Runs a command. -/
def Command.run (world : World) (threadsText : Option String) :
    Command → World × Except Error Report
  | .apply input units output threads => runApply world input units output threads threadsText
  | .remap classFile mapping output =>
    let (files, result) := remapFile world.files classFile mapping output
    (world.withFiles files, result)
  | .lines source => listLines world source

/-! ## Files that commands reach -/

/-- The paths that a command names. -/
def Command.paths : Command → List String
  | .apply input units output _ => [input, units, output]
  | .remap classFile _ output => classFile :: output.toList
  | .lines (.file path _) => [path]
  | .lines (.member archive _) => [archive]

/-- The paths beside archives at which a command may rebuild them. -/
def Command.temporaryPaths (fs : FileSystem) : Command → List String
  | .apply input .. =>
    ((fs.canonical input).toOption.map Archive.Handle.temporaryPath).toList
  | _ => []

/-! ## The program -/

/-- What the program takes from its environment. -/
structure Environment where
  /-- The text that sets the thread count. -/
  threads : Option String
  /-- The text that sets the log filter. -/
  log : Option String
  /-- The texts that set the colors of the log. -/
  colors : Settings.ColorTexts

/-- How a run of the program ended. -/
structure Ending where
  /-- What the command reports, or why it failed. -/
  result : Except Error Report
  /-- What was shown of the log. -/
  messages : String

/-- Lines, each ended by a line feed. -/
def ofLines (lines : List String) : String :=
  String.join (lines.map (· ++ "\n"))

namespace Ending

/-- The exit status. -/
def exit (ending : Ending) : Nat :=
  match ending.result with
  | .ok _ => 0
  | .error _ => 1

/-- What is printed as the result of a run that took some time. -/
def stdout (ending : Ending) (milliseconds : Nat) : String :=
  match ending.result with
  | .ok report => ofLines [(report.tree milliseconds).pretty 0]
  | .error _ => ""

/-- What is printed besides the result: the log, and behind it the failure. -/
def stderr (ending : Ending) : String :=
  match ending.result with
  | .ok _ => ending.messages
  | .error e => ending.messages ++ ofLines e.failure.report

end Ending

/-- Runs an invocation. -/
def Invocation.run (invocation : Invocation) (environment : Environment) (world : World) :
    World × Ending :=
  let (filter, warnings) :=
    Settings.logFilter invocation.quiet invocation.verbose environment.log
  let (done, result) := invocation.command.run { world with log := [] } environment.threads
  let style := Settings.logStyle environment.colors
  let shown := String.join (done.log.reverse.map (filter.display style))
  ({ done with log := done.log ++ world.log },
    { result, messages := ofLines warnings ++ shown })

end Reline.CommandLine
