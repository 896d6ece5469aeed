import BytecodeHost.Proofs.Cli.Arguments
import BytecodeHost.Proofs.ModuleStore.Naming
import BytecodeHost.Proofs.Rpc.Effects

/-!
# Commands on stores

A command finds its stores in a file system and is written as steps that may fail. What comes before
a call only reads, so its steps can be run one by one with the file system as it is, and what they
come to depends on the stores alone. That is how a command is compared with a server, which has no
file system.

A module store that was built by writes is open, holds what its log says and has no empty name. So a
reference stands for at most one image there, and an image that can be read has a record.

## Main definitions

* `ModuleStore.Refers` — a reference stands for an image
* `ModuleStore.Built` — what holds of a module store that was built by writes
* `Cli.Setting.Finds` — the stores that commands have
* `Cli.prepared` — what comes before a call, from the stores alone

## Main results

* `ModuleStore.built_after_writes` — writes build such stores
* `Cli.identify_eq_ok_iff`, `Rpc.resolveId_eq_ok_iff` — a command and a server go by what references
  stand for
* `Cli.run_resolve`, `Cli.run_prepare` — what comes before a call only reads
* `Cli.Setting.Finds.keepSnapshots` — a snapshot store is kept in one place
-/

namespace BytecodeHost

/-! ## Results -/

section

variable {ε ε' α β : Type}

/-- A result is that of the second part on what the first came to. -/
theorem bind_eq_ok_iff {x : Except ε α} {f : α → Except ε β} {b : β} :
    (x >>= f) = .ok b ↔ ∃ a, x = .ok a ∧ f a = .ok b := by
  refine ⟨exists_of_bind_eq_ok, ?_⟩
  rintro ⟨a, rfl, h⟩
  exact h

theorem mapError_eq_ok_iff {x : Except ε α} {f : ε → ε'} {a : α} :
    x.mapError f = .ok a ↔ x = .ok a := by
  refine ⟨eq_ok_of_mapError, ?_⟩
  rintro rfl
  rfl

end

/-! ## References -/

namespace ModuleStore

variable {s : ModuleStore} {ref : String} {id : ModuleId}

/-- A reference stands for the image of a stored name or, if there is no such name, for the
identifier that it spells. -/
def Refers (s : ModuleStore) (ref : String) (id : ModuleId) : Prop :=
  s.names.get? ref = some id ∨ s.names.get? ref = none ∧ ModuleId.ofText ref = .ok id

/-- A stored name stands for its image only. -/
theorem Refers.eq_of_get? {id' : ModuleId} (h : s.Refers ref id)
    (hname : s.names.get? ref = some id') : id = id' := by
  rcases h with hid | ⟨hnone, -⟩
  · exact Option.some.inj (hid.symm.trans hname)
  · rw [hname] at hnone
    contradiction

theorem reopen_of_readWrite (h : s.access = .readWrite) : s.reopen = s := by
  rw [reopen, ← h]

theorem resolve_of_names (hopen : s.requireOpen = .ok ()) (name : String) :
    s.resolve name =
      match s.names.get? name with
      | some id => .ok id
      | none => .error (.nameNotFound name) := by
  simp only [resolve, hopen]
  cases s.names.get? name <;> rfl

variable [Zstd.Compressor]

/-- Nothing is stored without a name. -/
theorem put_empty_ne (s : ModuleStore) (now : Int) (image : ByteArray)
    (r : ModuleStore × ModuleRecord) : s.put now "" image ≠ .ok r := by
  intro hput
  have hname : checkName "" = .error (.name .missing) := rfl
  rw [put_eq_match, hname] at hput
  split at hput <;> simp_all

theorem names_perform_write (h : s.names.get? "" = none) (w : Write) :
    (w.perform s).1.names.get? "" = none := by
  rw [w.perform_eq]
  cases w with
  | put now name image =>
    rw [Write.run]
    cases hput : s.put now name image with
    | error e => exact h
    | ok r =>
      obtain ⟨s', r⟩ := r
      obtain ⟨-, header, -, -, rfl⟩ := put_eq_ok hput
      have hname : "" ≠ name := by
        rintro rfl
        exact put_empty_ne s now image _ hput
      refine (Table.get?_insert _ _ _ _).trans ?_
      rw [if_neg hname, h]
  | delete id =>
    rw [Write.run]
    cases hdelete : s.delete id with
    | error e => exact h
    | ok s' =>
      obtain ⟨-, rfl⟩ := delete_eq_ok hdelete
      refine (Table.get?_filter _ _ _).trans ?_
      rw [h]
      rfl

theorem names_after_writes (h : s.names.get? "" = none) (ws : List Write) :
    (s.after (ws.map .write)).names.get? "" = none := by
  induction ws generalizing s with
  | nil => exact h
  | cons w ws ih => exact ih (names_perform_write h w)

/-- **What was built by writes** is open, holds what its log says and has no empty name. -/
structure Built (s : ModuleStore) : Prop where
  access : s.access = .readWrite
  reflects : ∃ log, s.Reflects log
  unnamed : s.names.get? "" = none

theorem built_after_writes (ws : List Write) : Built (after {} (ws.map .write)) where
  access := access_after_writes {} ws
  reflects := ⟨_, reflects_empty.after _⟩
  unnamed := names_after_writes rfl ws

theorem Built.requireOpen (h : s.Built) : s.requireOpen = .ok () :=
  requireOpen_of_readWrite h.access

/-- The empty reference stands for nothing. -/
theorem Built.ne_empty (h : s.Built) (href : s.Refers ref id) : ref ≠ "" := by
  rintro rfl
  rcases href with hname | ⟨-, hid⟩
  · rw [h.unnamed] at hname
    contradiction
  · have hempty : Base58.decode "" = .error .empty := rfl
    rw [ModuleId.ofText, hempty] at hid
    contradiction

/-- An image that can be read has a record under the same identifier, and the other way round. -/
theorem Built.exists_get_iff [Zstd.LawfulCompressor] (h : s.Built) :
    (∃ image, s.get id = .ok image) ↔ ∃ record, s.record id = .ok record ∧ record.id = id := by
  obtain ⟨log, hlog⟩ := h.reflects
  rw [hlog.exists_get_iff h.requireOpen, ← hlog.exists_record_iff h.requireOpen]
  refine exists_congr fun record => ⟨fun hrecord => ⟨hrecord, ?_⟩, fun hrecord => hrecord.1⟩
  exact hlog.id_of_get? ((record_eq_ok_iff_get? h.requireOpen id record).mp hrecord)

end ModuleStore

theorem Cli.identify_eq_ok_iff {s : ModuleStore} (hopen : s.requireOpen = .ok ()) {ref : String}
    {id : ModuleId} : identify s ref = .ok id ↔ s.Refers ref id := by
  rw [identify, ModuleStore.resolve_of_names hopen, ModuleStore.Refers]
  cases s.names.get? ref with
  | some id' => simp
  | none =>
    dsimp only
    cases ModuleId.ofText ref with
    | error f => simp
    | ok id' => simp

theorem Rpc.resolveId_eq_ok_iff {s : Storage} (hopen : s.modules.requireOpen = .ok ())
    (houtages : s.outages = []) {ref : String} {id : ModuleId} :
    resolveId s ref = .ok id ↔ s.modules.Refers ref id := by
  have hname : s.resolveName ref
      = (s.modules.resolve ref).mapError ModuleStore.Error.toFailure := by
    rw [Storage.resolveName, Storage.onModules, Storage.attempt, houtages]
    rfl
  rw [resolveId, hname, ModuleStore.resolve_of_names hopen, ModuleStore.Refers]
  cases s.modules.names.get? ref with
  | some id' => simp [Except.mapError]
  | none =>
    have hcause : (ModuleStore.Error.nameNotFound ref).toFailure.hasCause .nameNotFound = true :=
      rfl
    simp only [Except.mapError, hcause, if_true]
    cases ModuleId.ofText ref with
    | error f => simp
    | ok id' => simp

/-! ## Stores in a file system -/

namespace FileSystem

variable {fs : FileSystem} {path : String}

theorem openModules_of_node? {store : ModuleStore}
    (hstore : fs.node? (locationOf path) = some (.modules store))
    (hparent : ∃ snapshots, fs.node? (locationOf path).tail = some (.directory snapshots)) :
    fs.openModules path = .ok (fs, store.reopen) := by
  have hmake : fs.makeDirectory (locationOf path).tail = .ok fs := by
    obtain ⟨snapshots, hparent⟩ := hparent
    cases hplace : (locationOf path).tail with
    | nil => rw [makeDirectory]
    | cons name parents =>
      rw [hplace] at hparent
      rw [makeDirectory, hparent]
  rw [openModules, hmake]
  dsimp only
  rw [hstore]

theorem openSnapshots_of_node? {store : SnapshotStore}
    (hstore : fs.node? (locationOf path) = some (.directory (some store))) :
    fs.openSnapshots path = .ok (fs, store.reopen) := by
  rw [openSnapshots]
  simp only [hstore]

/-- A directory is put at one place only. -/
theorem node?_setNode_directory (place place' : Location) (snapshots : Option SnapshotStore) :
    (fs.setNode place (.directory snapshots)).node? place'
      = if place' = place then some (.directory snapshots) else fs.node? place' := by
  cases place with
  | nil =>
    rw [setNode, node?, node?]
    split_ifs <;> rfl
  | cons name parents =>
    have hset : fs.setNode (name :: parents) (.directory snapshots)
        = { fs with nodes := fs.nodes.insert (name :: parents) (.directory snapshots) } := rfl
    rw [hset, node?, node?, Table.get?_insert]
    by_cases hroot : place' = []
    · rw [if_pos hroot, if_pos hroot, hroot]
      rfl
    · rw [if_neg hroot, if_neg hroot]

end FileSystem

namespace Cli

/-! ## Steps -/

section

variable {α β : Type} {files files' : FileSystem}

theorem Step.run_bind_ok {x : Step α} {a : α} (h : x.run files = (.ok a, files')) (f : α → Step β) :
    (x >>= f).run files = (f a).run files' := by
  show (match x.run files with | (r, files') => ExceptT.bindCont f r files') = _
  rw [h]
  rfl

theorem Step.exists_of_run_bind {x : Step α} {f : α → Step β} {b : β}
    (h : (x >>= f).run files = (.ok b, files')) :
    ∃ a files₁, x.run files = (.ok a, files₁) ∧ (f a).run files₁ = (.ok b, files') := by
  cases hx : x.run files with
  | mk r files₁ =>
    cases r with
    | error e =>
      have hfails : (x >>= f).run files = (.error e, files₁) := by
        show (match x.run files with | (r, files') => ExceptT.bindCont f r files') = _
        rw [hx]
        rfl
      rw [hfails] at h
      cases h
    | ok a =>
      rw [Step.run_bind_ok hx] at h
      exact ⟨a, files₁, rfl, h⟩

/-- A step that only reads is followed by others on the same files. -/
theorem Step.run_bind_of_run {x : Step α} {r : Except Failure α} (hx : x.run files = (r, files))
    {f : α → Step β} {g : α → Except Failure β} (hf : ∀ a, (f a).run files = (g a, files)) :
    (x >>= f).run files = (r >>= g, files) := by
  show (match x.run files with | (r, files') => ExceptT.bindCont f r files') = _
  rw [hx]
  cases r with
  | error e => rfl
  | ok a => exact hf a

end

/-! ## Stores -/

/-- The stores of a file system, as commands have them. -/
structure Setting.Finds (w : Setting) (files : FileSystem) (modules : ModuleStore)
    (snapshots : SnapshotStore) : Prop where
  modules : files.node? (FileSystem.locationOf w.config.storePath) = some (.modules modules)
  /-- The module store is in a directory. -/
  parent : ∃ s, files.node? (FileSystem.locationOf w.config.storePath).tail = some (.directory s)
  snapshots : files.node? (FileSystem.locationOf w.config.snapshotsPath)
    = some (.directory (some snapshots))

section

variable {w : Setting} {files : FileSystem} {modules : ModuleStore} {snapshots : SnapshotStore}

theorem run_moduleStore (h : w.Finds files modules snapshots)
    (haccess : modules.access = .readWrite) :
    (moduleStore w).run files = (.ok modules, files) := by
  have hopen := FileSystem.openModules_of_node? h.modules h.parent
  rw [ModuleStore.reopen_of_readWrite haccess] at hopen
  have hfiles : (get : Step FileSystem).run files = (.ok files, files) := rfl
  rw [moduleStore, Step.run_bind_ok hfiles, hopen]
  rfl

theorem run_snapshotStore (h : w.Finds files modules snapshots) (hopen : snapshots.closed = false) :
    (snapshotStore w).run files = (.ok snapshots, files) := by
  have hstore := FileSystem.openSnapshots_of_node? h.snapshots
  rw [SnapshotStore.reopen, ← hopen] at hstore
  have hfiles : (get : Step FileSystem).run files = (.ok files, files) := rfl
  rw [snapshotStore, Step.run_bind_ok hfiles, hstore]
  rfl

/-- A file system in which one directory has another snapshot store. -/
theorem Setting.Finds.keepSnapshots (h : w.Finds files modules snapshots) (store : SnapshotStore) :
    w.Finds (files.keepSnapshots w.config.snapshotsPath store) modules store ∧
      ∀ place ≠ FileSystem.locationOf w.config.snapshotsPath,
        (files.keepSnapshots w.config.snapshotsPath store).node? place = files.node? place := by
  have hnode : ∀ place, (files.keepSnapshots w.config.snapshotsPath store).node? place
      = if place = FileSystem.locationOf w.config.snapshotsPath then
          some (.directory (some store)) else files.node? place := fun place =>
    FileSystem.node?_setNode_directory _ place _
  refine ⟨⟨?_, ?_, ?_⟩, fun place hplace => (hnode place).trans (if_neg hplace)⟩
  · refine (hnode _).trans ?_
    rw [if_neg, h.modules]
    intro hsame
    have hmodules := h.modules
    rw [hsame, h.snapshots] at hmodules
    cases hmodules
  · obtain ⟨s, hparent⟩ := h.parent
    by_cases hsame : (FileSystem.locationOf w.config.storePath).tail
        = FileSystem.locationOf w.config.snapshotsPath
    · exact ⟨_, (hnode _).trans (if_pos hsame)⟩
    · exact ⟨s, ((hnode _).trans (if_neg hsame)).trans hparent⟩
  · exact (hnode _).trans (if_pos rfl)

end

/-! ## Before a call -/

/-- The arena that a call starts from, put into its machine. -/
def restoredFrom (snapshots : SnapshotStore) (id : ModuleId) (label : String) (m : Machine) :
    Except Failure Machine :=
  if label = "" then .ok m
  else do
    let (arena, _) ← (snapshots.load id label).mapError (·.toFailure)
    match m.restore arena with
    | (m, .ok ()) => .ok m
    | (_, .error f) => .error f

/-- The machine for a call and the identifier of its module, from the stores alone. -/
def prepared (modules : ModuleStore) (snapshots : SnapshotStore) (r : RunRequest) :
    Except Failure (Machine × ModuleId) := do
  let (image, id) ← fetch modules r.ref
  let fresh ← (Machine.load? true r.ref image r.options.maxInstructions).mapError (·.failure)
  let m ← restoredFrom snapshots id r.options.restore fresh
  return (m, id)

section

variable {w : Setting} {files : FileSystem} {modules : ModuleStore} {snapshots : SnapshotStore}
  {e : FileError}

/-- A reference that names no file is looked up in the module store. -/
theorem run_resolve (h : w.Finds files modules snapshots) (haccess : modules.access = .readWrite)
    {ref : String} (hread : files.read (FileSystem.locationOf w.here) ref = .error e)
    (he : e.problem = .notFound) : (resolve w ref).run files = (fetch modules ref, files) := by
  have hfile : (readFile w ref).run files = (.ok (.error e), files) := by
    rw [← hread]
    rfl
  rw [resolve, Step.run_bind_ok hfile]
  dsimp only
  rw [if_pos he, Step.run_bind_ok (run_moduleStore h haccess)]
  rfl

theorem run_restored (h : w.Finds files modules snapshots) (hopen : snapshots.closed = false)
    (id : ModuleId) (label : String) (m : Machine) :
    (restored w id label m).run files = (restoredFrom snapshots id label m, files) := by
  rw [restored, restoredFrom]
  split_ifs with hlabel
  · rfl
  · rw [Step.run_bind_ok (run_snapshotStore h hopen)]
    refine Step.run_bind_of_run rfl fun saved => ?_
    obtain ⟨arena, info⟩ := saved
    dsimp only
    obtain ⟨m', _ | _⟩ := m.restore arena
    · rfl
    · rfl

/-- What comes before a call only reads. -/
theorem run_prepare (h : w.Finds files modules snapshots) (haccess : modules.access = .readWrite)
    (hopen : snapshots.closed = false) {r : RunRequest}
    (hread : files.read (FileSystem.locationOf w.here) r.ref = .error e)
    (he : e.problem = .notFound) :
    (prepare w r).run files = (prepared modules snapshots r, files) := by
  refine Step.run_bind_of_run (run_resolve h haccess hread he) fun fetched => ?_
  obtain ⟨image, id⟩ := fetched
  refine Step.run_bind_of_run rfl fun fresh => ?_
  exact Step.run_bind_of_run (run_restored h hopen id _ fresh) fun m => rfl

end

theorem fetch_eq_ok_iff {modules : ModuleStore} (hopen : modules.requireOpen = .ok ())
    {ref : String} {image : ByteArray} {id : ModuleId} :
    fetch modules ref = .ok (image, id) ↔
      modules.Refers ref id ∧ modules.get id = .ok image := by
  rw [← identify_eq_ok_iff hopen, fetch]
  simp only [bind_eq_ok_iff, mapError_eq_ok_iff]
  constructor
  · rintro ⟨id', hid, image', himage, hpair⟩
    cases hpair
    exact ⟨hid, himage⟩
  · rintro ⟨hid, himage⟩
    exact ⟨id, hid, image, himage, rfl⟩

end Cli

end BytecodeHost
