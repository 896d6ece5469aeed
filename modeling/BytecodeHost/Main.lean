import BytecodeHost.Cli.Command
import BytecodeHost.Storage.File
import Std.Time.DateTime.Timestamp

/-!
# The command line

Reads what a command may look at into a file system, carries the command out, prints what it
prints and writes back what it changed: the stores and the file of an exported snapshot.
-/

namespace BytecodeHost

namespace CommandLine

/-- How the program is used. -/
def usage : String :=
  "usage: qvm <command> [args]

commands:
  run [-save label] [-restore label] [-max-instructions n] [-timeout d] <module> [command] [args...]
  add <file> [name]
  list
  inspect <module>
  rm <module>
  snapshot list <module>
  snapshot export <module> <label> <file>
  snapshot import <file>
  serve [-addr host:port] [-no-snapshots]

<module> is a file path, a stored module name, or a base58 module id.
"

/-- The file in a snapshot directory that holds the store. -/
def snapshotFile (config : Config) : String :=
  Path.join [config.snapshotsPath, "snapshots"]

/-- Puts a node at a path from the root, and directories above it. -/
def place (files : FileSystem) (path : String) (node : Node) : FileSystem :=
  let location := FileSystem.locationOf path
  match files.makeDirectory location.tail with
  | .ok files => files.setNode location node
  | .error _ => files

/-- The contents of a file, if it can be read. -/
def contents? (path : String) : IO (Option ByteArray) := do
  try return some (← IO.FS.readBinFile path)
  catch _ => return none

/-- Adds a file if there is one. -/
def addFile (files : FileSystem) (path : String) : IO FileSystem := do
  match ← contents? path with
  | some content => return place files path (.file content)
  | none => return files

/-- Adds the stores that a configuration names. -/
def addStores (files : FileSystem) (config : Config) : IO FileSystem := do
  let files := match (← contents? config.storePath).bind ModuleStore.ofFile? with
    | some store => place files config.storePath (.modules store)
    | none => files
  return match (← contents? (snapshotFile config)).bind SnapshotStore.ofFile? with
    | some store => place files config.snapshotsPath (.directory (some store))
    | none => files

/-- Writes a file and the directories above it. -/
def writeFile (path : String) (content : ByteArray) : IO Unit := do
  IO.FS.createDirAll (Path.parent path)
  IO.FS.writeBinFile path content

/-- Writes the stores back. -/
def writeStores (files : FileSystem) (config : Config) : IO Unit := do
  match files.node? (FileSystem.locationOf config.storePath) with
  | some (.modules store) => writeFile config.storePath store.toFile
  | _ => pure ()
  match files.node? (FileSystem.locationOf config.snapshotsPath) with
  | some (.directory (some store)) => writeFile (snapshotFile config) store.toFile
  | _ => pure ()

/-- Writes a file back if a command changed it. -/
def writeChanged (before after : FileSystem) (path : String) : IO Unit := do
  match before.node? (FileSystem.locationOf path), after.node? (FileSystem.locationOf path) with
  | some (.file old), some (.file new) => if old ≠ new then writeFile path new
  | none, some (.file new) => writeFile path new
  | _, _ => pure ()

/-- What a command takes from outside. -/
def environment : IO Environment := do
  let now ← Std.Time.Timestamp.now
  return { now := now.toNanosecondsSinceUnixEpoch.val, fuel := 1 <<< 62 }

/-- Carries out a command in the working directory. -/
def perform (command : String) (args : List String) : IO UInt32 := do
  let here := (← IO.currentDir).toString
  let paths := args.map (Path.absolute here)
  let configs := (Path.ancestors here).map fun d => Path.join [d, Config.fileName]
  let mut files := place {} (Path.join [here, "."]) .directory
  for path in configs ++ paths do
    files ← addFile files path
  match Config.findAndLoad files here here with
  | .error e =>
    IO.eprintln s!"qvm: {e.message}"
    return 1
  | .ok config =>
    let before ← addStores files config
    match Cli.dispatch { here, config, env := ← environment } before command args with
    | none => return 1
    | some r =>
      let out ← IO.getStdout
      out.write r.output.bytes
      out.flush
      writeStores r.files config
      for path in paths do
        writeChanged before r.files path
      match r.failure with
      | none => return 0
      | some f =>
        IO.eprintln s!"qvm: {f.message.lossy}"
        return 1

end CommandLine

end BytecodeHost

/-- Runs a command. -/
def main (args : List String) : IO UInt32 := do
  match args with
  | [] =>
    IO.eprint BytecodeHost.CommandLine.usage
    return 2
  | command :: rest => BytecodeHost.CommandLine.perform command rest
