import BytecodeHost.Encoding.Zstd
import BytecodeHost.Snapshot.Info
import BytecodeHost.Table

/-!
# The snapshot store

Arenas are kept compressed under a module and a label, together with their digest. Each pair of
module and label is a key of its own.

## Main definitions

* `SnapshotStore.save`, `SnapshotStore.delete`: the two writes.
* `SnapshotStore.load`, `SnapshotStore.list`: the reads.
-/

namespace BytecodeHost

/-- A saved arena. -/
structure SnapshotStore.Entry where
  /-- What is known of it. -/
  info : Snapshot.Info
  /-- Its compressed bytes. -/
  compressed : ByteArray
  deriving DecidableEq

/-- A store of snapshots. -/
structure SnapshotStore where
  /-- What is saved, by module and label. -/
  entries : Table (ModuleId × String) SnapshotStore.Entry := .empty
  /-- Whether the store is no longer used. -/
  closed : Bool := false
  deriving DecidableEq

namespace SnapshotStore

variable [Zstd.Compressor]

/-- The most bytes that a saved arena may decompress to. -/
def maxSavedSize : Nat := 1 <<< 36

/-- Why an operation of the store fails. -/
inductive Error where
  /-- The label is empty or too long. -/
  | invalidLabel
  /-- The store is closed. -/
  | closed
  /-- Nothing is saved for the module under the label. -/
  | notFound (id : ModuleId) (label : String)
  /-- The saved bytes do not decompress. -/
  | undecodable
  /-- The saved bytes have another digest. -/
  | digestMismatch (id : ModuleId) (label : String)
  deriving DecidableEq

/-- A key as people read it. -/
def keyText (id : ModuleId) (label : String) : String :=
  id.short ++ "/" ++ label

/-- The failure that an error is. -/
def Error.toFailure : Error → Failure
  | invalidLabel => .ofCause .invalidLabel Snapshot.invalidLabelText
  | closed => .ofCause .snapshotStoreClosed "snapshot store closed"
  | notFound id label =>
    .ofCause .snapshotNotFound ("snapshot not found: " ++ keyText id label : String)
  | undecodable => .ofCause .decompressionFailed "decompression failed"
  | digestMismatch id label =>
    .ofCause .corruptedData
      (Snapshot.corruptedText ++ ": digest mismatch for " ++ keyText id label : String)

/-- Refuses every use of a closed store. -/
def requireOpen (s : SnapshotStore) : Except Error Unit :=
  if s.closed then .error .closed else .ok ()

/-- Saves an arena under a module and a label, replacing what was there. -/
def save (s : SnapshotStore) (now : Int) (id : ModuleId) (label : String) (arena : ByteArray) :
    Except Error (SnapshotStore × Snapshot.Info) := do
  if !Snapshot.isLabel label then throw .invalidLabel
  s.requireOpen
  let compressed := Zstd.compress arena
  let info : Snapshot.Info :=
    { moduleId := id
      label
      size := arena.size
      stored := compressed.size
      digest := Blake3.digest arena
      createdAt := now }
  return ({ s with entries := s.entries.insert (id, label) ⟨info, compressed⟩ }, info)

/-- The arena saved for a module under a label, checked against its digest. -/
def load (s : SnapshotStore) (id : ModuleId) (label : String) :
    Except Error (ByteArray × Snapshot.Info) := do
  s.requireOpen
  match s.entries.get? (id, label) with
  | none => throw (.notFound id label)
  | some e =>
    match Zstd.decompress maxSavedSize e.compressed with
    | none => throw .undecodable
    | some arena =>
      if Blake3.digest arena = e.info.digest then return (arena, e.info)
      else throw (.digestMismatch id label)

/-- The snapshots of a module in the order of their labels. -/
def list (s : SnapshotStore) (id : ModuleId) : Except Error (List Snapshot.Info) := do
  s.requireOpen
  let mine := s.entries.entries.filter fun e => e.1.1 = id
  return (mine.map fun e => e.2.info).mergeSort fun a b => a.label ≤ b.label

/-- Removes what is saved for a module under a label. -/
def delete (s : SnapshotStore) (id : ModuleId) (label : String) : Except Error SnapshotStore := do
  s.requireOpen
  if s.entries.contains (id, label) then
    return { s with entries := s.entries.erase (id, label) }
  else throw (.notFound id label)

/-- Ends the use of a store. -/
def close (s : SnapshotStore) : SnapshotStore :=
  { s with closed := true }

/-- Opens the saved contents anew. -/
def reopen (s : SnapshotStore) : SnapshotStore :=
  { s with closed := false }

end SnapshotStore

end BytecodeHost
