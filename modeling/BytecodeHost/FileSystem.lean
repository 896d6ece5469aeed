import BytecodeHost.ModuleStore
import BytecodeHost.Path
import BytecodeHost.Snapshot.Store
import BytecodeHost.Text.Quoted

/-!
# File systems

A tree of directories and files. A path is followed name by name: every name before the last must
be a directory that is there, so `missing/../file` names nothing even if `file` is there.

Stores live in the tree: a module store is a file of its own kind, and a snapshot store belongs to
a directory.

## Main definitions

* `FileSystem.locate`: the place that a path names.
* `FileSystem.read`, `FileSystem.write`: the contents of files.
* `FileSystem.openModules`, `FileSystem.openSnapshots`: the stores at a path.
-/

namespace BytecodeHost

/-- A place in a file system: the names that lead to it, the last one first. -/
abbrev Location : Type := List String

/-- What can be at a place. -/
inductive Node where
  /-- A file. -/
  | file (content : ByteArray)
  /-- A module store. -/
  | modules (store : ModuleStore)
  /-- A directory, which may hold a snapshot store. -/
  | directory (snapshots : Option SnapshotStore := none)

/-- What is wrong with a path. -/
inductive FileProblem where
  | notFound
  | notDirectory
  | isDirectory
  | nameTooLong
  | invalidName
  deriving DecidableEq

/-- The wording of a problem. -/
def FileProblem.message : FileProblem → String
  | notFound => "no such file or directory"
  | notDirectory => "not a directory"
  | isDirectory => "is a directory"
  | nameTooLong => "file name too long"
  | invalidName => "invalid argument"

/-- An operation that failed on a path. -/
structure FileError where
  /-- What was to be done. -/
  operation : String
  /-- The path as it was given. -/
  path : String
  /-- What is wrong. -/
  problem : FileProblem
  deriving DecidableEq

/-- The wording of an error. -/
def FileError.message (e : FileError) : String :=
  e.operation ++ " " ++ e.path ++ ": " ++ e.problem.message

/-- The failure that an error is. -/
def FileError.toFailure (e : FileError) : Failure :=
  .plain e.message

/-- A file system. The root is always there. -/
structure FileSystem where
  /-- What is at each place other than the root. -/
  nodes : Table Location Node := .empty
  /-- The snapshot store at the root. -/
  rootSnapshots : Option SnapshotStore := none

namespace FileSystem

/-- The longest name, in bytes. -/
def maxNameSize : Nat := 255

/-- One more than the longest path, in bytes. -/
def maxPathSize : Nat := 4096

/-- The place with the names of a path from the root. -/
def locationOf (path : String) : Location :=
  (Path.names (Path.clean path)).reverse

/-- What is at a place. -/
def node? (fs : FileSystem) (place : Location) : Option Node :=
  if place = [] then some (.directory fs.rootSnapshots) else fs.nodes.get? place

/-- Puts a node at a place. -/
def setNode (fs : FileSystem) (place : Location) (node : Node) : FileSystem :=
  match place, node with
  | [], .directory snapshots => { fs with rootSnapshots := snapshots }
  | [], _ => fs
  | _, _ => { fs with nodes := fs.nodes.insert place node }

/-- Follows names from a place. -/
def walk (fs : FileSystem) (place : Location) : List String → Except FileProblem Location
  | [] => .ok place
  | name :: rest =>
    match fs.node? place with
    | none => .error .notFound
    | some (.directory _) =>
      if name = "" ∨ name = "." then walk fs place rest
      else if name = ".." then walk fs place.tail rest
      else if maxNameSize < name.utf8ByteSize then .error .nameTooLong
      else walk fs (name :: place) rest
    | some _ => .error .notDirectory

/-- Refuses paths that name nothing whatever there is. -/
def checkPath (path : String) : Except FileProblem Unit :=
  if path.toList.contains '\x00' then .error .invalidName
  else if path = "" then .error .notFound
  else if maxPathSize ≤ path.utf8ByteSize then .error .nameTooLong
  else .ok ()

/-- The place where a path starts. -/
def start (directory : Location) (path : String) : Location :=
  if Path.isAbsolute path then [] else directory

/-- The place that a path names, seen from a directory. There may be nothing at it. -/
def locate (fs : FileSystem) (directory : Location) (path : String) :
    Except FileProblem Location := do
  checkPath path
  fs.walk (start directory path) (path.splitOn "/")

/-- What is at the place that a path names. -/
def find (fs : FileSystem) (directory : Location) (path : String) : Except FileProblem Node := do
  match fs.node? (← fs.locate directory path) with
  | none => throw .notFound
  | some node => return node

/-- Whether a path names something. -/
def holds (fs : FileSystem) (directory : Location) (path : String) : Bool :=
  (fs.find directory path).isOk

/-- A module store as bytes; nothing is known of them but that they start with zeros. -/
def storeBytes : ByteArray :=
  Bytes.zeros 32768

/-- The contents of a file. -/
def read (fs : FileSystem) (directory : Location) (path : String) :
    Except FileError ByteArray :=
  match fs.find directory path with
  | .error problem => .error ⟨"open", path, problem⟩
  | .ok (.file content) => .ok content
  | .ok (.modules _) => .ok storeBytes
  | .ok (.directory _) => .error ⟨"read", path, .isDirectory⟩

/-! ## Writing -/

/-- The place at which a path can put a file. A path that ends in a slash names a directory. -/
def locateNew (fs : FileSystem) (directory : Location) (path : String) :
    Except FileProblem Location := do
  checkPath path
  match (path.splitOn "/").reverse.dropWhile (· = "") with
  | [] => throw .isDirectory
  | name :: parents =>
    let place ← fs.walk (start directory path) (parents.reverse ++ [""])
    if name = "." ∨ name = ".." ∨ path.endsWith "/" then throw .isDirectory
    if maxNameSize < name.utf8ByteSize then throw .nameTooLong
    match fs.node? (name :: place) with
    | some (.directory _) => throw .isDirectory
    | _ => return name :: place

/-- Writes a file, which replaces an earlier one. -/
def write (fs : FileSystem) (directory : Location) (path : String) (content : ByteArray) :
    Except FileError FileSystem :=
  match fs.locateNew directory path with
  | .error problem => .error ⟨"open", path, problem⟩
  | .ok place => .ok (fs.setNode place (.file content))

/-- The path from the root to a place. -/
def pathOf (place : Location) : String :=
  "/" ++ "/".intercalate place.reverse

/-- Makes a directory and those above it where they are missing. -/
def makeDirectory (fs : FileSystem) : Location → Except FileError FileSystem
  | [] => .ok fs
  | name :: parents =>
    match fs.node? (name :: parents) with
    | some (.directory _) => .ok fs
    | some _ => .error ⟨"mkdir", pathOf (name :: parents), .notDirectory⟩
    | none =>
      match fs.makeDirectory parents with
      | .error e => .error e
      | .ok fs =>
        if maxNameSize < name.utf8ByteSize then
          .error ⟨"mkdir", pathOf (name :: parents), .nameTooLong⟩
        else .ok (fs.setNode (name :: parents) (.directory none))

/-! ## Stores -/

/-- Opens the module store in a file; a new or empty file becomes a store. -/
def openModules (fs : FileSystem) (path : String) : Except Failure (FileSystem × ModuleStore) :=
  let place := locationOf path
  match fs.makeDirectory place.tail with
  | .error e => .error (e.toFailure.within "create directory")
  | .ok fs =>
    match fs.node? place with
    | some (.modules store) => .ok (fs, store.reopen)
    | some (.directory _) =>
      .error ((FileError.mk "open" path .isDirectory).toFailure.within "open database")
    | some (.file content) =>
      if content.size = 0 then .ok (fs.setNode place (.modules {}), {})
      else .error ((Failure.plain "invalid database").within "open database")
    | none => .ok (fs.setNode place (.modules {}), {})

/-- The failure to open a snapshot store at a path. -/
def unusable (what path : String) (e : FileError) : Failure :=
  (Failure.plain (what ++ " " ++ Text.quoted path ++ " error: " ++ e.message : String)).within
    "open badger"

/-- Opens the snapshot store in a directory, which is made if it is missing. -/
def openSnapshots (fs : FileSystem) (path : String) :
    Except Failure (FileSystem × SnapshotStore) :=
  let place := locationOf path
  let lock := Path.join [path, "LOCK"]
  match fs.node? place with
  | some (.directory (some store)) => .ok (fs, store.reopen)
  | some (.directory none) => .ok (fs.setNode place (.directory (some {})), {})
  | some _ => .error (unusable "Cannot write pid file" lock ⟨"open", lock, .notDirectory⟩)
  | none =>
    match fs.makeDirectory place with
    | .error e => .error (unusable "Invalid Dir:" path { e with operation := "stat", path })
    | .ok fs => .ok (fs.setNode place (.directory (some {})), {})

/-- Keeps a module store in its file. -/
def keepModules (fs : FileSystem) (path : String) (store : ModuleStore) : FileSystem :=
  fs.setNode (locationOf path) (.modules store)

/-- Keeps a snapshot store in its directory. -/
def keepSnapshots (fs : FileSystem) (path : String) (store : SnapshotStore) : FileSystem :=
  fs.setNode (locationOf path) (.directory (some store))

end FileSystem

end BytecodeHost
