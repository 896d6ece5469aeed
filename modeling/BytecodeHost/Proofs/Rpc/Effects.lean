import BytecodeHost.Proofs.Machine.Restoration
import BytecodeHost.Proofs.ModuleStore.History
import BytecodeHost.Proofs.Rpc.Chaining

/-!
# The effects of requests

A request is answered with an error or with a result. An error means that nothing has changed,
wherever the request failed: its parameters may be wrong, a store may refuse, or a call may fail in
the machine. A result means that the method has done what it is there for, and nothing else. What
that is is said here by what can be looked up afterwards.

## Main definitions

* `Storage.Stored`, `Storage.Removed`, `Storage.Saved`, `Storage.Forgotten` — storage before and
  after a write
* `Rpc.Does` — an error and no effect, or a result and an effect
* `Rpc.Effect` — the effect of each method
* `Rpc.CallFails` — calls that have nothing to save

## Main results

* `Rpc.resolveId_of_resolveModule` — methods work on the module that they are asked about
* `Rpc.does_dispatch` — methods have their effects
* `Rpc.answer_effect` — so do requests
-/

namespace BytecodeHost

/-! ## Results -/

section

variable {ε ε' α β : Type}

theorem exists_of_bind_eq_ok {x : Except ε α} {f : α → Except ε β} {b : β}
    (h : (x >>= f) = .ok b) : ∃ a, x = .ok a ∧ f a = .ok b := by
  cases x with
  | error e => contradiction
  | ok a => exact ⟨a, rfl, h⟩

theorem exists_of_map_eq_ok {x : Except ε α} {f : α → β} {b : β} (h : x.map f = .ok b) :
    ∃ a, x = .ok a ∧ f a = b := by
  cases x with
  | error e => contradiction
  | ok a => exact ⟨a, rfl, Except.ok.inj h⟩

theorem eq_ok_of_mapError {x : Except ε α} {f : ε → ε'} {a : α} (h : x.mapError f = .ok a) :
    x = .ok a := by
  cases x with
  | error e => contradiction
  | ok b => exact congrArg Except.ok (Except.ok.inj h)

end

namespace Storage

variable {α : Type} {s s' : Storage}

/-! ## Writes -/

/-- An image was stored under a name, with a record. Nothing else is different. -/
structure Stored [Zstd.Compressor] (s : Storage) (now : Int) (name : String) (image : ByteArray)
    (record : ModuleRecord) (s' : Storage) : Prop where
  /-- Only the module store has changed. -/
  modules : s' = { s with modules := s'.modules }
  access : s'.modules.access = s.modules.access
  /-- The record is that of the image. -/
  recorded : ∃ header, Header.parse image = .ok header ∧
    record = .ofImage name image header now s.modules.puts
  images : ∀ id, s'.modules.images.get? id
    = if id = .ofImage image then some (Zstd.compress image) else s.modules.images.get? id
  records : ∀ id, s'.modules.records.get? id
    = if id = .ofImage image then some record else s.modules.records.get? id
  names : ∀ n, s'.modules.names.get? n
    = if n = name then some (.ofImage image) else s.modules.names.get? n
  /-- The image can be read. -/
  get : s'.modules.get (.ofImage image) = .ok image

/-- An image was removed, with its record and the names that pointed at it. Nothing else is
different. -/
structure Removed (s : Storage) (id : ModuleId) (s' : Storage) : Prop where
  /-- Only the module store has changed. -/
  modules : s' = { s with modules := s'.modules }
  access : s'.modules.access = s.modules.access
  /-- The image was there. -/
  has : s.modules.has id = true
  images : ∀ i, s'.modules.images.get? i = if i = id then none else s.modules.images.get? i
  records : ∀ i, s'.modules.records.get? i = if i = id then none else s.modules.records.get? i
  names : ∀ n, s'.modules.names.get? n
    = if s.modules.names.get? n = some id then none else s.modules.names.get? n

/-- An arena was saved for a module under a label. Nothing else is different. -/
structure Saved [Zstd.Compressor] (s : Storage) (now : Int) (id : ModuleId) (label : String)
    (arena : ByteArray) (s' : Storage) : Prop where
  /-- Only the snapshot store has changed. -/
  snapshots : s' = { s with snapshots := s'.snapshots }
  /-- It has one other entry, from which the arena can be read. -/
  entries : ∃ store store', s.snapshots = some store ∧ s'.snapshots = some store' ∧
    store'.closed = store.closed ∧
    (∀ key, store'.entries.get? key
      = if key = (id, label) then some (SnapshotStore.entryOf now id label arena)
        else store.entries.get? key) ∧
    ∃ info, store'.load id label = .ok (arena, info)

/-- What was saved for a module under a label was removed. Nothing else is different. -/
structure Forgotten (s : Storage) (id : ModuleId) (label : String) (s' : Storage) : Prop where
  /-- Only the snapshot store has changed. -/
  snapshots : s' = { s with snapshots := s'.snapshots }
  /-- It has one entry less. -/
  entries : ∃ store store', s.snapshots = some store ∧ s'.snapshots = some store' ∧
    store'.closed = store.closed ∧ store.entries.contains (id, label) = true ∧
    ∀ key, store'.entries.get? key = if key = (id, label) then none else store.entries.get? key

/-- What succeeds was not out of order. -/
theorem eq_ok_of_attempt {o : StorageOperation} {r : Except Failure α} {a : α}
    (h : s.attempt o r = .ok a) : r = .ok a := by
  rw [attempt] at h
  split at h
  · contradiction
  · exact h

theorem eq_ok_of_onModules {o : StorageOperation} {f : ModuleStore → Except ModuleStore.Error α}
    {a : α} (h : s.onModules o f = .ok a) : f s.modules = .ok a :=
  eq_ok_of_mapError (eq_ok_of_attempt h)

theorem exists_of_onSnapshots {o : StorageOperation}
    {f : SnapshotStore → Except SnapshotStore.Error α} {a : α} (h : s.onSnapshots o f = .ok a) :
    ∃ store, s.snapshots = some store ∧ f store = .ok a := by
  have hattempt := eq_ok_of_attempt h
  cases hstore : s.snapshots with
  | none =>
    rw [hstore] at hattempt
    contradiction
  | some store =>
    rw [hstore] at hattempt
    exact ⟨store, rfl, eq_ok_of_mapError hattempt⟩

theorem removed_of_deleteModule {id : ModuleId} (h : s.deleteModule id = .ok s') :
    s.Removed id s' := by
  obtain ⟨modules, hmodules, rfl⟩ := exists_of_map_eq_ok h
  obtain ⟨hhas, rfl⟩ := ModuleStore.delete_eq_ok (eq_ok_of_onModules hmodules)
  refine
    { modules := rfl
      access := rfl
      has := hhas
      images := fun _ => Table.get?_erase _ _ _
      records := fun _ => Table.get?_erase _ _ _
      names := fun n => ?_ }
  refine (Table.get?_filter _ _ _).trans ?_
  cases s.modules.names.get? n with
  | none => rfl
  | some target => by_cases htarget : target = id <;> simp [htarget]

theorem forgotten_of_deleteSnapshot {id : ModuleId} {label : String}
    (h : s.deleteSnapshot id label = .ok s') : s.Forgotten id label s' := by
  obtain ⟨store', hsnapshots, rfl⟩ := exists_of_map_eq_ok h
  obtain ⟨store, hstore, hdelete⟩ := exists_of_onSnapshots hsnapshots
  obtain ⟨hfound, rfl⟩ := SnapshotStore.delete_eq_ok hdelete
  exact ⟨rfl, store, _, hstore, rfl, rfl, hfound, fun key => Table.get?_erase _ _ _⟩

variable [Zstd.Compressor] [Zstd.LawfulCompressor]

theorem stored_of_putModule {now : Int} {name : String} {image : ByteArray}
    {record : ModuleRecord} (h : s.putModule now name image = .ok (s', record)) :
    s.Stored now name image record s' := by
  obtain ⟨⟨modules, r⟩, hmodules, hs⟩ := exists_of_map_eq_ok h
  obtain ⟨rfl, rfl⟩ := Prod.mk.inj hs
  obtain ⟨haccess, header, hparse, rfl, rfl⟩ := ModuleStore.put_eq_ok (eq_ok_of_onModules hmodules)
  exact
    { modules := rfl
      access := rfl
      recorded := ⟨header, hparse, rfl⟩
      images := fun _ => Table.get?_insert _ _ _ _
      records := fun _ => Table.get?_insert _ _ _ _
      names := fun _ => Table.get?_insert _ _ _ _
      get := ModuleStore.get_withImage haccess name (Header.size_le_of_parse hparse) rfl }

theorem saved_of_saveSnapshot {now : Int} {id : ModuleId} {label : String} {arena : ByteArray}
    {info : Snapshot.Info} (hsize : arena.size ≤ Zstd.maxWindow)
    (h : s.saveSnapshot now id label arena = .ok (s', info)) : s.Saved now id label arena s' := by
  obtain ⟨⟨store', i⟩, hsnapshots, hs⟩ := exists_of_map_eq_ok h
  obtain ⟨rfl, rfl⟩ := Prod.mk.inj hs
  obtain ⟨store, hstore, hsave⟩ := exists_of_onSnapshots hsnapshots
  obtain ⟨hopen, rfl⟩ := SnapshotStore.save_eq_ok hsave
  refine ⟨rfl, store, _, hstore, rfl, rfl, fun key => Table.get?_insert _ _ _ _,
    (SnapshotStore.entryOf now id label arena).info, ?_⟩
  apply SnapshotStore.load_of_get?
  · exact hopen
  · rw [Table.get?_insert, if_pos rfl]
  · exact hsize

end Storage

/-! ## Before and after a call -/

namespace Machine

theorem fabric_restore (m : Machine) (saved : ByteArray) :
    (m.restore saved).1.fabric = m.fabric := by
  obtain ⟨_ | l, status⟩ := m
  · rfl
  · simp only [restore]
    split_ifs with hbusy
    · rfl
    · cases harena : l.arena.restore saved with
      | error e => rfl
      | ok arena =>
        rw [Arena.restore] at harena
        split_ifs at harena with hsize
        exact fabric_eq_of_mask (Except.ok.inj harena ▸ rfl) rfl

end Machine

namespace Rpc

variable {s s' : Storage}

/-- **A method works on the module that its first parameter stands for**, if the module store holds
what its history says. -/
theorem resolveId_of_resolveModule [Zstd.Compressor] {log : List ModuleStore.Write}
    (hs : s.modules.Reflects log) {args : List JsonValue} {record : ModuleRecord}
    (h : resolveModule s args = .ok record) :
    ∃ ref, wordArgument args 0 "module" = .ok ref ∧ resolveId s ref = .ok record.id ∧
      s.moduleRecord record.id = .ok record := by
  rw [resolveModule] at h
  obtain ⟨ref, href, h⟩ := exists_of_bind_eq_ok h
  obtain ⟨id, hid, h⟩ := exists_of_bind_eq_ok h
  cases hrecord : s.moduleRecord id with
  | error f =>
    simp only [hrecord] at h
    split at h <;> contradiction
  | ok r =>
    rw [hrecord] at h
    obtain rfl := Except.ok.inj h
    have hread := Storage.eq_ok_of_onModules hrecord
    obtain ⟨_, hopen, -⟩ := exists_of_bind_eq_ok hread
    obtain rfl := hs.id_of_get? ((ModuleStore.record_eq_ok_iff_get? hopen id r).mp hread)
    exact ⟨ref, href, hid, hrecord⟩

theorem restoreSnapshot_eq_ok {id : ModuleId} {label : String} (hlabel : label ≠ "")
    {m m' : Machine} (h : restoreSnapshot s id label m = .ok m') :
    ∃ arena info, s.loadSnapshot id label = .ok (arena, info) ∧ m.restore arena = (m', .ok ()) := by
  rw [restoreSnapshot, if_neg hlabel] at h
  cases hload : s.loadSnapshot id label with
  | error f =>
    simp only [hload] at h
    split at h <;> contradiction
  | ok saved =>
    obtain ⟨arena, info⟩ := saved
    simp only [hload] at h
    cases hrestore : m.restore arena with
    | mk m₁ r =>
      rw [hrestore] at h
      cases r with
      | error f => contradiction
      | ok _ => exact ⟨arena, info, rfl, by rw [hrestore, Except.ok.inj h]⟩

theorem fabric_restoreSnapshot {id : ModuleId} {label : String} {m m' : Machine}
    (h : restoreSnapshot s id label m = .ok m') : m'.fabric = m.fabric := by
  by_cases hlabel : label = ""
  · rw [restoreSnapshot, if_pos hlabel] at h
    rw [Except.ok.inj h]
  · obtain ⟨arena, info, -, hrestore⟩ := restoreSnapshot_eq_ok hlabel h
    have hfabric := m.fabric_restore arena
    rwa [hrestore] at hfabric

/-- What a call needs is there: the parameters, the module, its image and the snapshot to start
from. -/
theorem prepareCall_eq_ok {server : Config} {params : JsonValue} {p : PreparedCall}
    (h : prepareCall server s params = .ok p) :
    ∃ args image fresh, positional params 1 "module" = .ok args ∧
      configArgument args CallConfig.ofJson? = .ok p.config ∧
      resolveModule s args = .ok p.record ∧ s.getModule p.record.id = .ok image ∧
      Machine.load? true p.record.name image
        (p.config.maxInstructions.getD server.maxInstructions) = .ok fresh ∧
      restoreSnapshot s p.record.id p.config.restore fresh = .ok p.machine := by
  rw [prepareCall] at h
  obtain ⟨args, hargs, h⟩ := exists_of_bind_eq_ok h
  obtain ⟨config, hconfig, h⟩ := exists_of_bind_eq_ok h
  dsimp only at h
  by_cases hcount : maxCallArgs < config.args.length
  · rw [if_pos hcount] at h
    cases h
  · rw [if_neg hcount] at h
    by_cases hdisabled : (config.restore ≠ "" ∨ config.save ≠ "") ∧ s.snapshots.isNone = true
    · rw [if_pos hdisabled] at h
      cases h
    · rw [if_neg hdisabled] at h
      obtain ⟨record, hrecord, h⟩ := exists_of_bind_eq_ok h
      obtain ⟨image, himage, h⟩ := exists_of_bind_eq_ok h
      obtain ⟨fresh, hfresh, h⟩ := exists_of_bind_eq_ok h
      obtain ⟨machine, hmachine, h⟩ := exists_of_bind_eq_ok h
      obtain rfl := Except.ok.inj h
      exact ⟨args, image, fresh, hargs, hconfig, hrecord, eq_ok_of_mapError himage,
        eq_ok_of_mapError hfresh, hmachine⟩

theorem exists_load_of_load? {name : String} {image : ByteArray} {limit : UInt64} {m : Machine}
    (h : Machine.load? true name image limit = .ok m) :
    ∃ mod, Module.load name image = .ok mod ∧ m = .create mod limit := by
  rw [Machine.load?] at h
  cases hload : Module.load name image with
  | error e =>
    rw [hload] at h
    contradiction
  | ok mod =>
    rw [hload] at h
    exact ⟨mod, rfl, (Except.ok.inj h).symm⟩

/-- After a call there is an arena, and it can be saved. -/
theorem exists_snapshot {σ : Type} {host : Host σ} {fuel : Nat} {server : Config}
    {params : JsonValue} {p : PreparedCall} {m : Machine} {c : Invocation} {x x' : σ}
    {r : CallResult} (hprepare : prepareCall server s params = .ok p)
    (hcall : p.machine.call host fuel x c = some (m, x', r)) :
    ∃ arena, m.snapshot = (m, .ok arena) ∧ arena.size ≤ Zstd.maxWindow := by
  obtain ⟨args, image, fresh, -, -, -, -, hfresh, hrestore⟩ := prepareCall_eq_ok hprepare
  obtain ⟨mod, hload, rfl⟩ := exists_load_of_load? hfresh
  have hfabric : m.fabric = (Machine.create mod _).fabric :=
    (Machine.kept_call hcall).1.trans (fabric_restoreSnapshot hrestore)
  have hmask : m.loaded.map (·.arena.mask) = some mod.arena.mask := congrArg Fabric.mask hfabric
  obtain ⟨l, hl, hmask⟩ := Option.map_eq_some_iff.mp hmask
  refine ⟨l.arena.bytes, by rw [Machine.snapshot, hl], ?_⟩
  have hsize := Module.size_arena_le hload
  rw [mod.arena.size_bytes, ← hmask, ← l.arena.size_bytes] at hsize
  exact Nat.le_trans hsize (by decide)

/-! ## Methods -/

/-- A method fails and leaves storage alone, or it answers with a result and has its effect. -/
inductive Does (s : Storage) (effect : Storage → Prop) : Storage × Except Error Result → Prop where
  | error (e : Error) : Does s effect (s, .error e)
  | result {s' : Storage} (result : Result) (h : effect s') : Does s effect (s', .ok result)

/-- The call that was prepared ends. -/
def PreparedCall.Ends (w : Setting) (p : PreparedCall) (m : Machine) (out : OutputBuffer)
    (r : CallResult) : Prop :=
  p.machine.callStandard w.env { limit := w.config.maxOutput }
    (p.invocation (w.env.interruption w.canceled (p.config.timeout w.config.callTimeout)))
      = some (m, out, r)

/-- A call was made and did not fail. If it was asked for, the arena was saved that the call left
behind; otherwise nothing has changed. -/
structure Called [Zstd.Compressor] (w : Setting) (s : Storage) (p : PreparedCall) (m : Machine)
    (s' : Storage) : Prop where
  ends : ∃ out r, p.Ends w m out r ∧ r.failure = none
  unsaved : p.config.save = "" → s' = s
  saved : p.config.save ≠ "" → ∃ arena, m.snapshot = (m, .ok arena) ∧
    s.Saved w.env.now p.record.id p.config.save arena s'

/-- The effect of a method, if it answers with a result. Methods that are not named here only
read. -/
def Effect [Zstd.Compressor] (w : Setting) (s : Storage) (method : String) (params : JsonValue)
    (s' : Storage) : Prop :=
  match method with
  | "addModule" => ∃ name image record, additionOf params = .ok (name, image) ∧
    s.Stored w.env.now name image record s'
  | "deleteModule" => ∃ record, moduleOf s params = .ok record ∧ s.Removed record.id s'
  | "callModule" => ∃ p m, prepareCall w.config s params = .ok p ∧ Called w s p m s'
  | "deleteSnapshot" => ∃ record label, snapshotOf s params = .ok (record, label) ∧
    s.Forgotten record.id label s'
  | _ => s' = s

theorem does_read (s : Storage) (outcome : Except Error Result) : Does s (· = s) (s, outcome) := by
  cases outcome with
  | error e => exact .error e
  | ok result => exact .result result rfl

theorem does_deleteModule (s : Storage) (params : JsonValue) :
    Does s (fun s' => ∃ record, moduleOf s params = .ok record ∧ s.Removed record.id s')
      (deleteModule s params) := by
  rw [deleteModule]
  cases hparams : moduleOf s params with
  | error e => exact .error e
  | ok record =>
    dsimp only
    cases hdelete : s.deleteModule record.id with
    | error f => exact .error _
    | ok s' => exact .result _ ⟨record, rfl, Storage.removed_of_deleteModule hdelete⟩

theorem does_deleteSnapshot (s : Storage) (params : JsonValue) :
    Does s (fun s' => ∃ record label, snapshotOf s params = .ok (record, label) ∧
      s.Forgotten record.id label s') (deleteSnapshot s params) := by
  rw [deleteSnapshot]
  cases hparams : snapshotOf s params with
  | error e => exact .error e
  | ok target =>
    obtain ⟨record, label⟩ := target
    dsimp only
    cases hdelete : s.deleteSnapshot record.id label with
    | error f =>
      dsimp only
      split_ifs
      · exact .error _
      · exact .error _
    | ok s' => exact .result _ ⟨record, label, rfl, Storage.forgotten_of_deleteSnapshot hdelete⟩

/-! ## Calls that save nothing -/

/-- Calls that have nothing to save. -/
inductive CallFails (w : Setting) (s : Storage) (params : JsonValue) : Prop where
  /-- The snapshot to start from cannot be loaded. -/
  | missing {args : List JsonValue} {config : CallConfig} {record : ModuleRecord} {f : Failure}
    (hargs : positional params 1 "module" = .ok args)
    (hconfig : configArgument args CallConfig.ofJson? = .ok config)
    (hrecord : resolveModule s args = .ok record) (hrestore : config.restore ≠ "")
    (hload : s.loadSnapshot record.id config.restore = .error f)
  /-- The snapshot to start from has not the size of the module's arena. -/
  | misfit {args : List JsonValue} {config : CallConfig} {record : ModuleRecord}
    {image arena : ByteArray} {mod : Module} {info : Snapshot.Info}
    (hargs : positional params 1 "module" = .ok args)
    (hconfig : configArgument args CallConfig.ofJson? = .ok config)
    (hrecord : resolveModule s args = .ok record) (himage : s.getModule record.id = .ok image)
    (hmod : Module.load record.name image = .ok mod) (hrestore : config.restore ≠ "")
    (hload : s.loadSnapshot record.id config.restore = .ok (arena, info))
    (hsize : arena.size ≠ mod.arena.bytes.size)
  /-- The call fails in the machine. -/
  | failed {p : PreparedCall} {m : Machine} {out : OutputBuffer} {r : CallResult} {f : Failure}
    (hprepare : prepareCall w.config s params = .ok p) (hends : p.Ends w m out r)
    (hfailure : r.failure = some f)

/-- A call that is prepared starts from the snapshot that was asked for, which has the size of the
arena. -/
theorem exists_loadSnapshot {server : Config} {params : JsonValue} {p : PreparedCall}
    (hprepare : prepareCall server s params = .ok p) (hrestore : p.config.restore ≠ "") :
    ∃ image mod arena info, s.getModule p.record.id = .ok image ∧
      Module.load p.record.name image = .ok mod ∧
      s.loadSnapshot p.record.id p.config.restore = .ok (arena, info) ∧
      arena.size = mod.arena.bytes.size := by
  obtain ⟨args, image, fresh, -, -, -, himage, hfresh, hmachine⟩ := prepareCall_eq_ok hprepare
  obtain ⟨mod, hmod, rfl⟩ := exists_load_of_load? hfresh
  obtain ⟨arena, info, hload, hrestored⟩ := restoreSnapshot_eq_ok hrestore hmachine
  refine ⟨image, mod, arena, info, himage, hmod, hload, ?_⟩
  by_contra hsize
  have hrefused : mod.arena.restore arena = .error (.restore arena.size mod.arena.bytes.size) :=
    dif_neg hsize
  simp [Machine.restore, Machine.create, hrefused, Machine.refuse] at hrestored

/-- The parameters decide what is called. -/
theorem config_record_of_prepareCall {server : Config} {params : JsonValue} {p : PreparedCall}
    (hprepare : prepareCall server s params = .ok p) {args : List JsonValue} {config : CallConfig}
    {record : ModuleRecord} (hargs : positional params 1 "module" = .ok args)
    (hconfig : configArgument args CallConfig.ofJson? = .ok config)
    (hrecord : resolveModule s args = .ok record) : p.config = config ∧ p.record = record := by
  obtain ⟨args', image, fresh, hargs', hconfig', hrecord', -⟩ := prepareCall_eq_ok hprepare
  obtain rfl : args' = args := Except.ok.inj (hargs'.symm.trans hargs)
  exact ⟨Except.ok.inj (hconfig'.symm.trans hconfig), Except.ok.inj (hrecord'.symm.trans hrecord)⟩

section

variable [Zstd.Compressor]

theorem CallFails.exists_error {w : Setting} {params : JsonValue} (h : CallFails w s params) :
    ∃ e, callModule w.config w.env w.canceled s params = some (s, .error e) := by
  cases hprepare : prepareCall w.config s params with
  | error e => exact ⟨e, by rw [callModule, hprepare]⟩
  | ok p =>
    cases h with
    | missing hargs hconfig hrecord hrestore hload =>
      obtain ⟨rfl, rfl⟩ := config_record_of_prepareCall hprepare hargs hconfig hrecord
      obtain ⟨image, mod, arena, info, -, -, hload', -⟩ := exists_loadSnapshot hprepare hrestore
      rw [hload] at hload'
      contradiction
    | misfit hargs hconfig hrecord himage hmod hrestore hload hsize =>
      obtain ⟨rfl, rfl⟩ := config_record_of_prepareCall hprepare hargs hconfig hrecord
      obtain ⟨image, mod, arena, info, himage', hmod', hload', hsize'⟩ :=
        exists_loadSnapshot hprepare hrestore
      obtain rfl := Except.ok.inj (himage.symm.trans himage')
      obtain rfl := Except.ok.inj (hmod.symm.trans hmod')
      obtain ⟨rfl, rfl⟩ := Prod.mk.inj (Except.ok.inj (hload.symm.trans hload'))
      exact absurd hsize' hsize
    | @failed p' m out r f hprepare' hends hfailure =>
      obtain rfl := Except.ok.inj (hprepare.symm.trans hprepare')
      rw [PreparedCall.Ends] at hends
      refine ⟨.executionFailed f m.status.meter.used ⟨out.bytes⟩, ?_⟩
      rw [callModule, hprepare]
      dsimp only
      rw [hends]
      simp only [finishCall, hfailure]

/-- Only a call that goes on for longer than it is given fuel for is not answered. -/
theorem call_of_answer_eq_none {w : Setting} {r : Request} (h : answer w s r = none) :
    r.method = "callModule" ∧ ∃ p, prepareCall w.config s r.params = .ok p ∧
      ∀ m out result, ¬p.Ends w m out result := by
  rw [answer] at h
  split_ifs at h with hversion
  cases hdispatch : dispatch w.config w.env w.canceled s r.method r.params with
  | some outcome =>
    rw [hdispatch] at h
    contradiction
  | none =>
    unfold dispatch at hdispatch
    split at hdispatch
    case h_5 hmethod =>
      refine ⟨hmethod, ?_⟩
      rw [callModule] at hdispatch
      cases hprepare : prepareCall w.config s r.params with
      | error e =>
        rw [hprepare] at hdispatch
        contradiction
      | ok p =>
        rw [hprepare] at hdispatch
        refine ⟨p, rfl, fun m out result hends => ?_⟩
        rw [PreparedCall.Ends] at hends
        simp [hends] at hdispatch
    all_goals contradiction

/-! ### Methods that store -/

variable [Zstd.LawfulCompressor]

theorem does_addModule (s : Storage) (now : Int) (params : JsonValue) :
    Does s (fun s' => ∃ name image record, additionOf params = .ok (name, image) ∧
      s.Stored now name image record s') (addModule s now params) := by
  rw [addModule]
  cases hparams : additionOf params with
  | error e => exact .error e
  | ok addition =>
    obtain ⟨name, image⟩ := addition
    dsimp only
    cases hput : s.putModule now name image with
    | error f =>
      dsimp only
      split_ifs
      · exact .error _
      · exact .error _
    | ok stored =>
      obtain ⟨s', record⟩ := stored
      exact .result _ ⟨name, image, record, rfl, Storage.stored_of_putModule hput⟩

/-- Saving fails and leaves storage alone, or it saves what it was asked for. -/
theorem saveArena_cases (s : Storage) (now : Int) (id : ModuleId) (label : String) {m : Machine}
    {arena : ByteArray} (harena : m.snapshot = (m, .ok arena))
    (hsize : arena.size ≤ Zstd.maxWindow) :
    (∃ e, saveArena s now id label m = (s, .error e)) ∨
      ∃ s', saveArena s now id label m = (s', .ok ()) ∧ (label = "" → s' = s) ∧
        (label ≠ "" → s.Saved now id label arena s') := by
  rw [saveArena]
  split_ifs with hlabel
  · exact .inr ⟨s, rfl, fun _ => rfl, fun h => absurd hlabel h⟩
  · rw [harena]
    dsimp only
    cases hsave : s.saveSnapshot now id label arena with
    | error f =>
      left
      dsimp only
      split_ifs
      · exact ⟨_, rfl⟩
      · exact ⟨_, rfl⟩
    | ok saved =>
      obtain ⟨s', info⟩ := saved
      exact .inr ⟨s', rfl, fun h => absurd h hlabel, fun _ =>
        Storage.saved_of_saveSnapshot hsize hsave⟩

theorem does_callModule (w : Setting) (s : Storage) (params : JsonValue)
    {outcome : Storage × Except Error Result}
    (h : callModule w.config w.env w.canceled s params = some outcome) :
    Does s (fun s' => ∃ p m, prepareCall w.config s params = .ok p ∧ Called w s p m s')
      outcome := by
  rw [callModule] at h
  cases hprepare : prepareCall w.config s params with
  | error e =>
    rw [hprepare] at h
    obtain rfl := Option.some.inj h
    exact .error e
  | ok p =>
    rw [hprepare] at h
    dsimp only at h
    split at h
    · contradiction
    · rename_i m out r hcall
      obtain rfl := Option.some.inj h
      rw [finishCall]
      cases hfailure : r.failure with
      | some f => exact .error _
      | none =>
        obtain ⟨arena, harena, hsize⟩ := exists_snapshot hprepare hcall
        dsimp only
        rcases saveArena_cases s w.env.now p.record.id p.config.save harena hsize with
          ⟨e, hsave⟩ | ⟨s', hsave, hunsaved, hsaved⟩
        · rw [hsave]
          exact .error e
        · rw [hsave]
          exact .result _ ⟨p, m, rfl, ⟨out, r, hcall, hfailure⟩, hunsaved, fun h =>
            ⟨arena, harena, hsaved h⟩⟩

/-- Methods have their effects. -/
theorem does_dispatch (w : Setting) (s : Storage) (method : String) (params : JsonValue)
    {outcome : Storage × Except Error Result}
    (h : dispatch w.config w.env w.canceled s method params = some outcome) :
    Does s (Effect w s method params) outcome := by
  unfold dispatch at h
  split at h
  · obtain rfl := Option.some.inj h
    exact does_read s _
  · obtain rfl := Option.some.inj h
    exact does_read s _
  · obtain rfl := Option.some.inj h
    exact does_addModule s _ _
  · obtain rfl := Option.some.inj h
    exact does_deleteModule s _
  · exact does_callModule w s _ h
  · obtain rfl := Option.some.inj h
    exact does_read s _
  · obtain rfl := Option.some.inj h
    exact does_deleteSnapshot s _
  · obtain rfl := Option.some.inj h
    exact does_read s _
  · obtain rfl := Option.some.inj h
    exact does_read s _
  · obtain rfl := Option.some.inj h
    exact .error _

/-! ## Requests -/

theorem does_answer {w : Setting} {r : Request} {response : Response}
    (h : answer w s r = some (s', response)) :
    Does s (Effect w s r.method r.params) (s', response.outcome) := by
  rw [answer] at h
  split_ifs at h with hversion
  · obtain ⟨rfl, rfl⟩ := Prod.mk.inj (Option.some.inj h)
    exact .error _
  · cases hdispatch : dispatch w.config w.env w.canceled s r.method r.params with
    | none =>
      rw [hdispatch] at h
      contradiction
    | some outcome =>
      rw [hdispatch] at h
      obtain ⟨rfl, rfl⟩ := Prod.mk.inj (Option.some.inj h)
      exact does_dispatch w s r.method r.params hdispatch

/-- **Requests have their effects, and failures have none.** Whatever the storage is and whatever is
asked for, a request that is answered with an error has left the storage alone, and one that is
answered with a result has had the effect of its method and no other. A call that cannot start from
the snapshot that it was to start from, or that fails in the machine, is answered with an error.
Only a call that goes on for longer than it is given fuel for is not answered. -/
theorem answer_effect (w : Setting) (s : Storage) (r : Request) :
    (∀ s' id e, answer w s r = some (s', ⟨id, .error e⟩) → s' = s) ∧
    (∀ s' id result, answer w s r = some (s', ⟨id, .ok result⟩) →
      Effect w s r.method r.params s') ∧
    (r.method = "callModule" → CallFails w s r.params →
      ∃ e, answer w s r = some (s, ⟨r.id, .error e⟩)) ∧
    (answer w s r = none → r.method = "callModule" ∧ ∃ p,
      prepareCall w.config s r.params = .ok p ∧ ∀ m out result, ¬p.Ends w m out result) := by
  refine ⟨fun s' id e h => ?_, fun s' id result h => ?_, fun hmethod hfails => ?_,
    call_of_answer_eq_none⟩
  · cases does_answer h
    rfl
  · cases does_answer h with
    | result _ heffect => exact heffect
  · obtain ⟨e, hcall⟩ := hfails.exists_error
    rw [answer, hmethod]
    split_ifs
    · exact ⟨.invalidRequest, rfl⟩
    · exact ⟨e, by simp only [dispatch, hcall]⟩

end

/-! ### A sample -/

/-- A request to remove the module that is called "tally". -/
def Request.deleteTally : Request where
  version := protocolVersion
  method := "deleteModule"
  params := .array [.string "tally"]

/-- A request to call it from where it was left under the label "gone". -/
def Request.callGone : Request where
  version := protocolVersion
  method := "callModule"
  params := .array [.string "tally",
    .object [("restore", .string "gone"), ("save", .string "kept")]]

/-- A server that has one module and no snapshot is asked for a call from a snapshot, which fails,
and to remove the module. -/
theorem answer_effect_tally :
    ∃ modules record e s' id result,
      ({} : Storage).putModule 0 "tally" Module.tallyImage = .ok ({ modules }, record) ∧
      answer .tally { modules } .callGone = some ({ modules }, ⟨.null, .error e⟩) ∧
      answer .tally { modules } .deleteTally = some (s', ⟨id, .ok result⟩) ∧
      Storage.Removed { modules } record.id s' := by
  have hremoved : ((({} : Storage).putModule 0 "tally" Module.tallyImage).toOption.bind
      fun stored => (answer .tally stored.1 .deleteTally).bind fun x =>
        x.2.outcome.toOption).isSome = true := by
    decide +kernel
  obtain ⟨result, hresult⟩ := Option.isSome_iff_exists.mp hremoved
  obtain ⟨⟨s, record⟩, hput, hresult⟩ := Option.bind_eq_some_iff.mp hresult
  obtain ⟨⟨s', id, outcome⟩, hanswer, hresult⟩ := Option.bind_eq_some_iff.mp hresult
  obtain rfl := eq_ok_of_toOption hresult
  obtain ⟨header, hparse, -⟩ := (Storage.stored_of_putModule (eq_ok_of_toOption hput)).recorded
  have hname : ModuleStore.checkName "tally" = .ok () := rfl
  obtain ⟨modules, record, hput', -, hrecord, hresolve⟩ :=
    Storage.exists_putModule (s := {}) rfl rfl 0 hname hparse
  obtain ⟨rfl, rfl⟩ := Prod.mk.inj (Except.ok.inj (hput'.symm.trans (eq_ok_of_toOption hput)))
  have hmodule : ∀ rest, resolveModule { modules } (.string "tally" :: rest) = .ok record :=
    resolveModule_of_resolveName (by decide) hresolve hrecord
  obtain ⟨-, heffect, -, -⟩ := answer_effect .tally { modules } .deleteTally
  obtain ⟨record', hrecord', hgone⟩ := heffect s' id result hanswer
  obtain rfl : record = record' := Except.ok.inj ((hmodule []).symm.trans hrecord')
  obtain ⟨-, -, hfails, -⟩ := answer_effect .tally { modules } .callGone
  have hoptions : configArgument [.string "tally",
      .object [("restore", .string "gone"), ("save", .string "kept")]] CallConfig.ofJson?
      = .ok { restore := "gone", save := "kept" } := rfl
  obtain ⟨e, hcall⟩ := hfails rfl (.missing rfl hoptions (hmodule _) (by decide) rfl)
  exact ⟨modules, record, e, s', id, result, hput', hcall, hanswer, hgone⟩

end Rpc

end BytecodeHost
