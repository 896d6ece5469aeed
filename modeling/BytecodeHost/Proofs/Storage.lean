import BytecodeHost.Proofs.Encoding.Zstd
import BytecodeHost.Storage

/-!
# What storage keeps

Images and arenas are kept compressed and are checked against their digests when they are read. What
was stored comes back byte for byte: an image under its identifier and by its name, an arena under
its module and its label. The digests do not matter here, because what is read is what was digested;
of the compressor nothing matters but that what it wrote is read back.

## Main definitions

* `Storage.Ready` — snapshots are enabled, and nothing is out of order
* `Storage.TakesImages` — so far as images go

## Main results

* `ModuleStore.exists_put`, `SnapshotStore.exists_save` — what is stored is read again
* `Storage.TakesImages.exists_putModule`, `Storage.Ready.exists_saveSnapshot` — the same through the
  storage of a server
-/

namespace BytecodeHost

/-! ## Images -/

/-- An image with a header is not too long. -/
theorem Header.size_le_of_parse {image : ByteArray} {header : Header}
    (h : parse image = .ok header) : image.size ≤ maxImageSize := by
  refine Nat.le_of_not_lt fun hlong => ?_
  rw [parse] at h
  simp only [hlong, if_true] at h
  split at h <;> contradiction

namespace ModuleStore

theorem requireOpen_of_readWrite {s : ModuleStore} (h : s.access = .readWrite) :
    s.requireOpen = .ok () := by
  rw [requireOpen, h]
  exact if_neg (by decide)

/-- A store with an image, its record and the names that point at it removed. -/
def without (s : ModuleStore) (id : ModuleId) : ModuleStore :=
  { s with
    images := s.images.erase id
    records := s.records.erase id
    names := s.names.filter fun _ target => target ≠ id }

/-- A deletion comes to the first thing that is wrong with it, or to a store without the image. -/
theorem delete_eq_match (s : ModuleStore) (id : ModuleId) :
    s.delete id =
      match s.access, s.images.contains id with
      | .closed, _ => .error .closed
      | .readOnly, _ => .error .deleteReadOnly
      | .readWrite, false => .error .notFound
      | .readWrite, true => .ok (s.without id) := by
  cases haccess : s.access with
  | closed => simp [delete, requireOpen, haccess, bind, Except.bind]
  | readOnly =>
    simp [delete, requireOpen, haccess, bind, Except.bind, throw, throwThe, MonadExceptOf.throw]
  | readWrite =>
    cases hfound : s.images.contains id with
    | false =>
      simp [delete, requireOpen, haccess, hfound, bind, Except.bind, throw, throwThe,
        MonadExceptOf.throw]
    | true =>
      simp [delete, requireOpen, haccess, hfound, without, bind, Except.bind, pure, Except.pure]

/-- A deletion that succeeds. -/
theorem delete_eq_ok {s s' : ModuleStore} {id : ModuleId} (h : s.delete id = .ok s') :
    s.has id = true ∧ s' = s.without id := by
  rw [delete_eq_match] at h
  split at h
  case h_4 haccess hfound =>
    exact ⟨by simp [has, haccess, hfound], (Except.ok.inj h).symm⟩
  all_goals contradiction

variable [Zstd.Compressor]

/-- A store with an image put into it. -/
def withImage (s : ModuleStore) (name : String) (image : ByteArray) (record : ModuleRecord) :
    ModuleStore :=
  { s with
    images := s.images.insert record.id (Zstd.compress image)
    records := s.records.insert record.id record
    names := s.names.insert name record.id
    puts := s.puts + 1 }

theorem put_of_parse {s : ModuleStore} (haccess : s.access = .readWrite) (now : Int)
    {name : String} (hname : checkName name = .ok ()) {image : ByteArray} {header : Header}
    (hparse : Header.parse image = .ok header) :
    s.put now name image
      = .ok (s.withImage name image (.ofImage name image header now s.puts),
          .ofImage name image header now s.puts) := by
  have hwritable : s.access ≠ .readOnly := by
    rw [haccess]
    decide
  simp only [put, hparse, Except.mapError, requireOpen_of_readWrite haccess, if_neg hwritable,
    hname]
  rfl

theorem requireOpen_withImage {s : ModuleStore} (h : s.access = .readWrite) (name : String)
    (image : ByteArray) (record : ModuleRecord) :
    (s.withImage name image record).requireOpen = .ok () :=
  requireOpen_of_readWrite h

theorem get_withImage [Zstd.LawfulCompressor] {s : ModuleStore}
    (haccess : s.access = .readWrite) (name : String) {image : ByteArray}
    (hsize : image.size ≤ maxImageSize) {record : ModuleRecord} (hid : .ofImage image = record.id) :
    (s.withImage name image record).get record.id = .ok image := by
  have hopen := requireOpen_withImage haccess name image record
  have hread : Zstd.decompress maxStoredSize (Zstd.compress image) = some image :=
    Zstd.decompress_compress (Nat.le_trans hsize (by decide)) (by decide)
      (Nat.le_trans hsize (by decide))
  have hget : (s.withImage name image record).images.get? record.id
      = some (Zstd.compress image) := by
    rw [withImage, Table.get?_insert, if_pos rfl]
  simp only [get, hopen, hget, hread, if_pos hid]
  rfl

/-- **What is put is read again**, under its identifier and by its name. -/
theorem exists_put [Zstd.LawfulCompressor] {s : ModuleStore}
    (haccess : s.access = .readWrite) (now : Int) {name : String} (hname : checkName name = .ok ())
    {image : ByteArray} {header : Header} (hparse : Header.parse image = .ok header) :
    ∃ s' record, s.put now name image = .ok (s', record) ∧ s'.get record.id = .ok image ∧
      s'.record record.id = .ok record ∧ s'.resolve name = .ok record.id := by
  refine ⟨_, _, put_of_parse haccess now hname hparse,
    get_withImage haccess name (Header.size_le_of_parse hparse) rfl, ?_⟩
  generalize ModuleRecord.ofImage name image header now s.puts = record
  have hopen := requireOpen_withImage haccess name image record
  have hrecord : (s.withImage name image record).records.get? record.id = some record := by
    rw [withImage, Table.get?_insert, if_pos rfl]
  have htarget : (s.withImage name image record).names.get? name = some record.id := by
    rw [withImage, Table.get?_insert, if_pos rfl]
  constructor
  · simp only [ModuleStore.record, hopen, hrecord]
    rfl
  · simp only [resolve, hopen, htarget]
    rfl

/-- A put comes to the first thing that is wrong with it, or to a store with the image. -/
theorem put_eq_match (s : ModuleStore) (now : Int) (name : String) (image : ByteArray) :
    s.put now name image =
      match Header.parse image, s.access, checkName name with
      | .error e, _, _ => .error (.image e)
      | .ok _, .closed, _ => .error .closed
      | .ok _, .readOnly, _ => .error .putReadOnly
      | .ok _, .readWrite, .error e => .error e
      | .ok header, .readWrite, .ok _ =>
        .ok (s.withImage name image (.ofImage name image header now s.puts),
          .ofImage name image header now s.puts) := by
  cases hparse : Header.parse image with
  | error e => simp [put, hparse, Except.mapError, bind, Except.bind]
  | ok header =>
    cases haccess : s.access with
    | closed => simp [put, hparse, requireOpen, haccess, Except.mapError, bind, Except.bind]
    | readOnly =>
      simp [put, hparse, requireOpen, haccess, Except.mapError, bind, Except.bind, throw, throwThe,
        MonadExceptOf.throw]
    | readWrite =>
      cases hname : checkName name with
      | error e =>
        simp [put, hparse, requireOpen, haccess, hname, Except.mapError, bind, Except.bind]
      | ok _ => exact put_of_parse haccess now hname hparse

/-- A put that succeeds. -/
theorem put_eq_ok {s s' : ModuleStore} {now : Int} {name : String} {image : ByteArray}
    {r : ModuleRecord} (h : s.put now name image = .ok (s', r)) :
    s.access = .readWrite ∧ ∃ header, Header.parse image = .ok header ∧
      r = .ofImage name image header now s.puts ∧ s' = s.withImage name image r := by
  rw [put_eq_match] at h
  split at h
  case h_5 header _ hparse haccess _ =>
    obtain ⟨rfl, rfl⟩ := Prod.mk.inj (Except.ok.inj h)
    exact ⟨haccess, header, hparse, rfl, rfl⟩
  all_goals contradiction

end ModuleStore

/-! ## Arenas -/

namespace SnapshotStore

/-- Removing a snapshot with success. -/
theorem delete_eq_ok {s s' : SnapshotStore} {id : ModuleId} {label : String}
    (h : s.delete id label = .ok s') :
    s.entries.contains (id, label) = true ∧
      s' = { s with entries := s.entries.erase (id, label) } := by
  cases hclosed : s.closed with
  | true => simp [delete, requireOpen, hclosed, bind, Except.bind] at h
  | false =>
    by_cases hfound : s.entries.contains (id, label) = true
    · simp [delete, requireOpen, hclosed, hfound, bind, Except.bind, pure, Except.pure] at h
      exact ⟨hfound, h.symm⟩
    · simp [delete, requireOpen, hclosed, hfound, bind, Except.bind, throw, throwThe,
        MonadExceptOf.throw] at h

variable [Zstd.Compressor]

/-- What is kept of a saved arena. -/
def entryOf (now : Int) (id : ModuleId) (label : String) (arena : ByteArray) : Entry where
  info :=
    { moduleId := id
      label
      size := arena.size
      stored := (Zstd.compress arena).size
      digest := Blake3.digest arena
      createdAt := now }
  compressed := Zstd.compress arena

theorem save_of_isLabel {s : SnapshotStore} (hopen : s.closed = false) (now : Int) (id : ModuleId)
    {label : String} (hlabel : Snapshot.isLabel label = true) (arena : ByteArray) :
    s.save now id label arena
      = .ok ({ s with entries := s.entries.insert (id, label) (entryOf now id label arena) },
          (entryOf now id label arena).info) := by
  simp only [save, hlabel, requireOpen, hopen]
  rfl

theorem load_of_get? [Zstd.LawfulCompressor] {s : SnapshotStore} (hopen : s.closed = false)
    {now : Int} {id : ModuleId} {label : String} {arena : ByteArray}
    (hget : s.entries.get? (id, label) = some (entryOf now id label arena))
    (hsize : arena.size ≤ Zstd.maxWindow) :
    s.load id label = .ok (arena, (entryOf now id label arena).info) := by
  have hsaved : Zstd.decompress maxSavedSize (entryOf now id label arena).compressed = some arena :=
    Zstd.decompress_compress (Nat.le_trans hsize (by decide)) (by decide) hsize
  have hdigest : Blake3.digest arena = (entryOf now id label arena).info.digest := rfl
  simp only [load, requireOpen, hopen, hget, hsaved, if_pos hdigest]
  rfl

/-- **What is saved is loaded again.** -/
theorem exists_save [Zstd.LawfulCompressor] {s : SnapshotStore} (hopen : s.closed = false)
    (now : Int) (id : ModuleId) {label : String} (hlabel : Snapshot.isLabel label = true)
    {arena : ByteArray} (hsize : arena.size ≤ Zstd.maxWindow) :
    ∃ s' info, s.save now id label arena = .ok (s', info) ∧ s'.closed = false ∧
      s'.load id label = .ok (arena, info) := by
  refine ⟨_, _, save_of_isLabel hopen now id hlabel arena, hopen, ?_⟩
  apply load_of_get?
  · exact hopen
  · rw [Table.get?_insert, if_pos rfl]
  · exact hsize

/-- Saving that succeeds. -/
theorem save_eq_ok {s s' : SnapshotStore} {now : Int} {id : ModuleId} {label : String}
    {arena : ByteArray} {info : Snapshot.Info} (h : s.save now id label arena = .ok (s', info)) :
    s.closed = false ∧
      s' = { s with entries := s.entries.insert (id, label) (entryOf now id label arena) } := by
  cases hclosed : s.closed with
  | true =>
    cases hlabel : Snapshot.isLabel label <;>
      simp [save, hlabel, requireOpen, hclosed, bind, Except.bind, throw, throwThe,
        MonadExceptOf.throw] at h
  | false =>
    cases hlabel : Snapshot.isLabel label with
    | false =>
      simp [save, hlabel, bind, Except.bind, throw, throwThe, MonadExceptOf.throw] at h
    | true =>
      rw [save_of_isLabel hclosed now id hlabel arena] at h
      rw [← hclosed]
      exact ⟨rfl, (Prod.mk.inj (Except.ok.inj h)).1.symm⟩

end SnapshotStore

namespace Storage

/-- Snapshots are enabled, and nothing is out of order. -/
structure Ready (s : Storage) : Prop where
  /-- The snapshot store is there and open. -/
  snapshots : ∃ store, s.snapshots = some store ∧ store.closed = false
  /-- Nothing is out of order. -/
  outages : s.outages = []

/-- The module store is open for writing, and nothing that images need is out of order. -/
structure TakesImages (s : Storage) : Prop where
  /-- Images may be stored. -/
  access : s.modules.access = .readWrite
  /-- They can be stored, found and read. -/
  works : ∀ o ∈ [StorageOperation.putModule, .getModule, .moduleRecord, .resolveName],
    s.outages.lookup o = none

theorem onModules_of_lookup {α : Type} {s : Storage} {o : StorageOperation}
    (h : s.outages.lookup o = none) (f : ModuleStore → Except ModuleStore.Error α) :
    s.onModules o f = (f s.modules).mapError ModuleStore.Error.toFailure := by
  rw [onModules, attempt, h]

variable [Zstd.Compressor] [Zstd.LawfulCompressor]

/-- **What a server saves it loads again**, and only its snapshots change. -/
theorem Ready.exists_saveSnapshot {s : Storage} (h : s.Ready) (now : Int) (id : ModuleId)
    {label : String} (hlabel : Snapshot.isLabel label = true) {arena : ByteArray}
    (hsize : arena.size ≤ Zstd.maxWindow) :
    ∃ store info, s.saveSnapshot now id label arena
        = .ok ({ s with snapshots := some store }, info) ∧
      Ready { s with snapshots := some store } ∧
      loadSnapshot { s with snapshots := some store } id label = .ok (arena, info) := by
  obtain ⟨⟨store, hstore, hopen⟩, houtages⟩ := h
  obtain ⟨store', info, hsave, hopen', hload⟩ :=
    SnapshotStore.exists_save hopen now id hlabel hsize
  refine ⟨store', info, ?_, ⟨⟨store', rfl, hopen'⟩, houtages⟩, ?_⟩
  · simp only [saveSnapshot, onSnapshots, attempt, houtages, hstore, hsave]
    rfl
  · simp only [loadSnapshot, onSnapshots, attempt, houtages, hload]
    rfl

/-- **What a server stores it finds again**, and only its modules change. -/
theorem TakesImages.exists_putModule {s : Storage} (h : s.TakesImages) (now : Int) {name : String}
    (hname : ModuleStore.checkName name = .ok ()) {image : ByteArray} {header : Header}
    (hparse : Header.parse image = .ok header) :
    ∃ modules record, s.putModule now name image = .ok ({ s with modules }, record) ∧
      getModule { s with modules } record.id = .ok image ∧
      moduleRecord { s with modules } record.id = .ok record ∧
      resolveName { s with modules } name = .ok record.id := by
  obtain ⟨modules, record, hput, hget, hrecord, hresolve⟩ :=
    ModuleStore.exists_put h.access now hname hparse
  have hworks : ∀ o ∈ [StorageOperation.putModule, .getModule, .moduleRecord, .resolveName],
      ({ s with modules } : Storage).outages.lookup o = none := h.works
  refine ⟨modules, record, ?_, ?_, ?_, ?_⟩
  · rw [putModule, onModules_of_lookup (h.works _ (by decide)), hput]
    rfl
  · rw [getModule, onModules_of_lookup (hworks _ (by decide)), hget]
    rfl
  · rw [moduleRecord, onModules_of_lookup (hworks _ (by decide)), hrecord]
    rfl
  · rw [resolveName, onModules_of_lookup (hworks _ (by decide)), hresolve]
    rfl

/-- What a server stores with nothing out of order. -/
theorem exists_putModule {s : Storage} (houtages : s.outages = [])
    (haccess : s.modules.access = .readWrite) (now : Int) {name : String}
    (hname : ModuleStore.checkName name = .ok ()) {image : ByteArray} {header : Header}
    (hparse : Header.parse image = .ok header) :
    ∃ modules record, s.putModule now name image = .ok ({ s with modules }, record) ∧
      getModule { s with modules } record.id = .ok image ∧
      moduleRecord { s with modules } record.id = .ok record ∧
      resolveName { s with modules } name = .ok record.id :=
  TakesImages.exists_putModule ⟨haccess, fun _ _ => by rw [houtages]; rfl⟩ now hname hparse

end Storage

end BytecodeHost
