import BytecodeHost.Encoding.Zstd
import BytecodeHost.Image.Load
import BytecodeHost.ModuleId
import BytecodeHost.Table

/-!
# The module store

Images are kept compressed under the digest of their bytes, a record beside each of them, and
names point at the image last stored under them. Storing an image again renames its record but
leaves the names that pointed at it.

A failed operation has no new store to return, so it changes nothing; `put` validates the image
before it looks at the store.

## Main definitions

* `ModuleStore.put`, `ModuleStore.delete`: the two writes.
* `ModuleStore.get`, `ModuleStore.record`, `ModuleStore.resolve`, `ModuleStore.has`,
  `ModuleStore.list`: the reads.
-/

namespace BytecodeHost

/-- What is known of a stored module without decompressing it. -/
structure ModuleRecord where
  /-- The digest of the image. -/
  id : ModuleId
  /-- The name of the latest put. -/
  name : String
  /-- The length of the image. -/
  size : Nat
  instructionCount : Int32
  codeLength : Int32
  dataLength : Int32
  litLength : Int32
  bssLength : Int32
  /-- The size of the arena that the module runs in. -/
  arenaSize : UInt32
  /-- When the module was stored, in nanoseconds. -/
  addedAt : Int
  /-- How many puts came before. -/
  sequence : Nat
  deriving DecidableEq

namespace ModuleRecord

/-- The record of an image with an accepted header. -/
def ofImage (name : String) (image : ByteArray) (h : Header) (now : Int) (sequence : Nat) :
    ModuleRecord :=
  { id := .ofImage image
    name
    size := image.size
    instructionCount := h.instructionCount
    codeLength := h.codeLength
    dataLength := h.dataLength
    litLength := h.litLength
    bssLength := h.bssLength
    arenaSize := h.arenaSize
    addedAt := now
    sequence }

/-- Records are listed by name, and under one name by time. Puts at the same time are listed in
their order. -/
def le (a b : ModuleRecord) : Bool :=
  a.name < b.name || (a.name == b.name &&
    (a.addedAt < b.addedAt || (a.addedAt == b.addedAt && a.sequence ≤ b.sequence)))

end ModuleRecord

/-- What a store lets its user do. -/
inductive Access where
  | readWrite
  | readOnly
  | closed
  deriving DecidableEq

/-- A store of module images. -/
structure ModuleStore where
  /-- Compressed images. -/
  images : Table ModuleId ByteArray := .empty
  /-- Records of the stored images. -/
  records : Table ModuleId ModuleRecord := .empty
  /-- The image last stored under each name. -/
  names : Table String ModuleId := .empty
  /-- How many puts the store has seen. -/
  puts : Nat := 0
  /-- What may be done now. -/
  access : Access := .readWrite
  deriving DecidableEq

namespace ModuleStore

variable [Zstd.Compressor]

/-- The longest name, in bytes. -/
def maxNameSize : Nat := 32768

/-- The most bytes that a stored image may decompress to. -/
def maxStoredSize : Nat := 1 <<< 36

/-- Why a name cannot be stored. -/
inductive NameError where
  /-- It is empty. -/
  | missing
  /-- It is longer than `maxNameSize`. -/
  | tooLong
  deriving DecidableEq

/-- The text of a name error. -/
def NameError.message : NameError → String
  | missing => "key required"
  | tooLong => "key too large"

/-- Why an operation of the store fails. -/
inductive Error where
  /-- The image has no acceptable header. -/
  | image (e : LoadError)
  /-- The store is closed. -/
  | closed
  /-- A put into a store that is only read. -/
  | putReadOnly
  /-- A deletion from a store that is only read. -/
  | deleteReadOnly
  /-- The name cannot be stored. -/
  | name (e : NameError)
  /-- No module has the identifier. -/
  | notFound
  /-- No module has the name. -/
  | nameNotFound (name : String)
  /-- The stored bytes do not decompress. -/
  | undecodable
  /-- The stored bytes have another digest. -/
  | digestMismatch (id : ModuleId)
  /-- A closed store has nothing to flush. -/
  | flushClosed
  deriving DecidableEq

/-- The text of a write into a store that is only read. -/
def readOnlyText : String :=
  "database is in read-only mode"

/-- The text of a stored image that does not read back. -/
def corruptText : String :=
  "stored module is corrupt"

/-- The failure that an error is. -/
def Error.toFailure : Error → Failure
  | image e => e.toFailure
  | closed => .ofCause .moduleStoreClosed "module store closed"
  | putReadOnly => (Failure.plain readOnlyText).within "put module"
  | deleteReadOnly => .plain readOnlyText
  | name e => (Failure.plain e.message).within "put module"
  | notFound => .ofCause .moduleNotFound "module not found"
  | nameNotFound wanted => .ofCause .nameNotFound ("module name not found: " ++ wanted : String)
  | undecodable => .ofCause .corruptImage corruptText
  | digestMismatch id =>
    .ofCause .corruptImage (corruptText ++ ": digest mismatch for " ++ id.toText : String)
  | flushClosed => .plain "bad file descriptor"

/-- Refuses every use of a closed store. -/
def requireOpen (s : ModuleStore) : Except Error Unit :=
  if s.access = .closed then .error .closed else .ok ()

/-- Refuses names that cannot be stored. -/
def checkName (name : String) : Except Error Unit :=
  if name.utf8ByteSize = 0 then .error (.name .missing)
  else if maxNameSize < name.utf8ByteSize then .error (.name .tooLong)
  else .ok ()

/-- Stores an image under a name. -/
def put (s : ModuleStore) (now : Int) (name : String) (image : ByteArray) :
    Except Error (ModuleStore × ModuleRecord) := do
  let header ← (Header.parse image).mapError .image
  s.requireOpen
  if s.access = .readOnly then throw .putReadOnly
  checkName name
  let record := ModuleRecord.ofImage name image header now s.puts
  return ({ s with
    images := s.images.insert record.id (Zstd.compress image)
    records := s.records.insert record.id record
    names := s.names.insert name record.id
    puts := s.puts + 1 }, record)

/-- The image with an identifier, checked against it. -/
def get (s : ModuleStore) (id : ModuleId) : Except Error ByteArray := do
  s.requireOpen
  match s.images.get? id with
  | none => throw .notFound
  | some compressed =>
    match Zstd.decompress maxStoredSize compressed with
    | none => throw .undecodable
    | some image => if ModuleId.ofImage image = id then return image else throw (.digestMismatch id)

/-- The record of a stored image. -/
def record (s : ModuleStore) (id : ModuleId) : Except Error ModuleRecord := do
  s.requireOpen
  match s.records.get? id with
  | none => throw .notFound
  | some r => return r

/-- The image last stored under a name. -/
def resolve (s : ModuleStore) (name : String) : Except Error ModuleId := do
  s.requireOpen
  match s.names.get? name with
  | none => throw (.nameNotFound name)
  | some id => return id

/-- Whether an image is stored; a closed store has none. -/
def has (s : ModuleStore) (id : ModuleId) : Bool :=
  s.access ≠ .closed && s.images.contains id

/-- Removes an image, its record and every name that points at it. -/
def delete (s : ModuleStore) (id : ModuleId) : Except Error ModuleStore := do
  s.requireOpen
  if s.access = .readOnly then throw .deleteReadOnly
  if s.images.contains id then
    return { s with
      images := s.images.erase id
      records := s.records.erase id
      names := s.names.filter fun _ target => target ≠ id }
  else throw .notFound

/-- All records in order. -/
def list (s : ModuleStore) : Except Error (List ModuleRecord) := do
  s.requireOpen
  return s.records.values.mergeSort ModuleRecord.le

/-- Makes what was written durable. -/
def sync (s : ModuleStore) : Except Error Unit :=
  if s.access = .closed then .error .flushClosed else .ok ()

/-- Ends the use of a store. -/
def close (s : ModuleStore) : ModuleStore :=
  { s with access := .closed }

/-- Opens the stored contents anew. -/
def reopen (s : ModuleStore) : ModuleStore :=
  { s with access := .readWrite }

/-- Opens the stored contents for reading only. -/
def reopenReadOnly (s : ModuleStore) : ModuleStore :=
  { s with access := .readOnly }

/-- Replaces the compressed bytes of an image behind the store's back. -/
def overwriteImage (s : ModuleStore) (id : ModuleId) (compressed : ByteArray) : ModuleStore :=
  { s with images := s.images.insert id compressed }

end ModuleStore

end BytecodeHost
