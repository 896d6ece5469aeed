import BytecodeHost.Snapshot.File
import BytecodeHost.Storage

/-!
# Stores as files

A store is written as one binary object. A module is written as its compressed image together with
what the image does not tell: its name, the time and the order of its put. Everything else in its
record is read off the image again, so a file cannot hold a record that does not fit its image.

## Main definitions

* `ModuleStore.toFile`, `ModuleStore.ofFile?`.
* `SnapshotStore.toFile`, `SnapshotStore.ofFile?`.
-/

namespace BytecodeHost

namespace ModuleStore

/-- A stored module. -/
def entryToCbor (r : ModuleRecord) (compressed : ByteArray) : Cbor :=
  .map [(.uint 1, .ofString r.name), (.uint 2, .ofInt r.addedAt), (.uint 3, .uint r.sequence),
    (.uint 4, .bytes compressed)]

/-- A name and what it points at. -/
def nameToCbor (name : String) (id : ModuleId) : Cbor :=
  .map [(.uint 1, .ofString name), (.uint 2, .bytes id.bytes)]

/-- The bytes of a store. -/
def toFile (s : ModuleStore) : ByteArray :=
  let modules := s.records.entries.filterMap fun (id, r) =>
    (s.images.get? id).map (entryToCbor r)
  let names := s.names.entries.map fun (name, id) => nameToCbor name id
  (Cbor.map [(.uint 1, .array modules), (.uint 2, .array names), (.uint 3, .uint s.puts)]).encode

/-- The items of a list. -/
def itemsOf? : Cbor → Option (List Cbor)
  | .array items => some items
  | _ => none

/-- Adds a stored module. -/
def addEntry? (s : ModuleStore) (c : Cbor) : Option ModuleStore := do
  let fields ← c.toEntries?
  let name ← (Cbor.field fields 1).toText?
  let addedAt ← (Cbor.field fields 2).toInt?
  let sequence ← (Cbor.field fields 3).toInt?
  let compressed ← (Cbor.field fields 4).toBytes?
  let image ← Zstd.decompress maxStoredSize compressed
  let header ← (Header.parse image).toOption
  let r := ModuleRecord.ofImage name image header addedAt sequence.toNat
  return { s with
    images := s.images.insert r.id compressed
    records := s.records.insert r.id r }

/-- Adds a name. -/
def addName? (s : ModuleStore) (c : Cbor) : Option ModuleStore := do
  let fields ← c.toEntries?
  let name ← (Cbor.field fields 1).toText?
  let id ← (ModuleId.ofBytes (← (Cbor.field fields 2).toBytes?)).toOption
  return { s with names := s.names.insert name id }

/-- The store with the given bytes. -/
def ofFile? (b : ByteArray) : Option ModuleStore := do
  let fields ← (← Cbor.parse? b).toEntries?
  let modules ← itemsOf? (Cbor.field fields 1)
  let names ← itemsOf? (Cbor.field fields 2)
  let puts ← (Cbor.field fields 3).toInt?
  let s ← modules.reverse.foldlM addEntry? { puts := puts.toNat }
  names.reverse.foldlM addName? s

end ModuleStore

namespace SnapshotStore

/-- A saved arena. -/
def Entry.toCbor (e : Entry) : Cbor :=
  .map [(.uint 1, e.info.toCbor), (.uint 2, .bytes e.compressed)]

/-- The bytes of a store. -/
def toFile (s : SnapshotStore) : ByteArray :=
  (Cbor.array (s.entries.values.map Entry.toCbor)).encode

/-- Adds a saved arena. -/
def addEntry? (s : SnapshotStore) (c : Cbor) : Option SnapshotStore := do
  let fields ← c.toEntries?
  let info ← Snapshot.Info.ofCbor? (Cbor.field fields 1)
  let compressed ← (Cbor.field fields 2).toBytes?
  return { s with entries := s.entries.insert (info.moduleId, info.label) ⟨info, compressed⟩ }

/-- The store with the given bytes. -/
def ofFile? (b : ByteArray) : Option SnapshotStore :=
  match Cbor.parse? b with
  | some (.array items) => items.reverse.foldlM addEntry? {}
  | _ => none

end SnapshotStore

end BytecodeHost
