import BytecodeHost.ModuleStore
import BytecodeHost.Snapshot.Store

/-!
# The storage behind a server

A server works on a module store and, if snapshots are enabled, a snapshot store. The medium below
them may be out of order for some operations; such an operation fails before the store is reached.

Every write answers with the storage afterwards, so a failed one has no storage to go on with but
the one before.
-/

namespace BytecodeHost

/-- The operations of storage that can be out of order. -/
inductive StorageOperation where
  | putModule
  | getModule
  | moduleRecord
  | resolveName
  | deleteModule
  | listModules
  | saveSnapshot
  | loadSnapshot
  | listSnapshots
  | deleteSnapshot
  deriving DecidableEq

/-- The stores of a server. -/
structure Storage where
  /-- The modules. -/
  modules : ModuleStore := {}
  /-- The snapshots, if they are enabled. -/
  snapshots : Option SnapshotStore := some {}
  /-- The operations that are out of order, with what they say. -/
  outages : List (StorageOperation × String) := []

namespace Storage

variable {α : Type} [Zstd.Compressor]

/-- Carries out an operation unless it is out of order. -/
def attempt (s : Storage) (o : StorageOperation) (r : Except Failure α) : Except Failure α :=
  match s.outages.lookup o with
  | some text => .error (.plain text)
  | none => r

/-- An operation of the module store. -/
def onModules (s : Storage) (o : StorageOperation)
    (f : ModuleStore → Except ModuleStore.Error α) : Except Failure α :=
  s.attempt o ((f s.modules).mapError ModuleStore.Error.toFailure)

/-- An operation of the snapshot store; a server without one counts as closed. -/
def onSnapshots (s : Storage) (o : StorageOperation)
    (f : SnapshotStore → Except SnapshotStore.Error α) : Except Failure α :=
  s.attempt o (match s.snapshots with
    | some store => (f store).mapError SnapshotStore.Error.toFailure
    | none => .error SnapshotStore.Error.closed.toFailure)

/-- Stores an image under a name. -/
def putModule (s : Storage) (now : Int) (name : String) (image : ByteArray) :
    Except Failure (Storage × ModuleRecord) :=
  (s.onModules .putModule (·.put now name image)).map fun (modules, r) => ({ s with modules }, r)

/-- The image with an identifier. -/
def getModule (s : Storage) (id : ModuleId) : Except Failure ByteArray :=
  s.onModules .getModule (·.get id)

/-- The record of a stored image. -/
def moduleRecord (s : Storage) (id : ModuleId) : Except Failure ModuleRecord :=
  s.onModules .moduleRecord (·.record id)

/-- The image last stored under a name. -/
def resolveName (s : Storage) (name : String) : Except Failure ModuleId :=
  s.onModules .resolveName (·.resolve name)

/-- Removes an image. -/
def deleteModule (s : Storage) (id : ModuleId) : Except Failure Storage :=
  (s.onModules .deleteModule (·.delete id)).map fun modules => { s with modules }

/-- All records. -/
def listModules (s : Storage) : Except Failure (List ModuleRecord) :=
  s.onModules .listModules (·.list)

/-- Saves an arena. -/
def saveSnapshot (s : Storage) (now : Int) (id : ModuleId) (label : String) (arena : ByteArray) :
    Except Failure (Storage × Snapshot.Info) :=
  (s.onSnapshots .saveSnapshot (·.save now id label arena)).map fun (store, info) =>
    ({ s with snapshots := some store }, info)

/-- A saved arena. -/
def loadSnapshot (s : Storage) (id : ModuleId) (label : String) :
    Except Failure (ByteArray × Snapshot.Info) :=
  s.onSnapshots .loadSnapshot (·.load id label)

/-- The snapshots of a module. -/
def listSnapshots (s : Storage) (id : ModuleId) : Except Failure (List Snapshot.Info) :=
  s.onSnapshots .listSnapshots (·.list id)

/-- Removes a saved arena. -/
def deleteSnapshot (s : Storage) (id : ModuleId) (label : String) : Except Failure Storage :=
  (s.onSnapshots .deleteSnapshot (·.delete id label)).map fun store =>
    { s with snapshots := some store }

end Storage

end BytecodeHost
