import BytecodeHost.Proofs.Cli.Stores

/-!
# Before a call

The command line and a server prepare a machine for a call, each in its own way and with its own
errors. What they need is the same: the reference stands for a stored image, the image can be
loaded, and the machine takes the arena to start from. A server needs besides that the arguments are
not too many, which the command line leaves to the machine. The module has another name in each of
them, which makes no difference to what a call starts from.

## Main definitions

* `SnapshotStore.Restores` — a machine takes a saved arena
* `Job.Prepares` — a machine is prepared for a job
* `Job.options`, `Job.params` — the request for a job

## Main results

* `Cli.prepared_eq_ok_iff`, `Rpc.prepareCall_eq_ok_iff` — what the command line and a server prepare
* `Job.Prepares.exists_rename` — the name of a module does not matter
-/

namespace BytecodeHost

/-! ## Restoring -/

/-- A machine takes the arena that is saved for a module under a label; it stays as it is if there
is no label. -/
def SnapshotStore.Restores (s : SnapshotStore) (id : ModuleId) (label : String) (m m' : Machine) :
    Prop :=
  label = "" ∧ m' = m ∨
    label ≠ "" ∧ ∃ saved info, s.load id label = .ok (saved, info) ∧ m.restore saved = (m', .ok ())

theorem Cli.restoredFrom_eq_ok_iff {s : SnapshotStore} {id : ModuleId} {label : String}
    {m m' : Machine} : restoredFrom s id label m = .ok m' ↔ s.Restores id label m m' := by
  rw [restoredFrom, SnapshotStore.Restores]
  split_ifs with hlabel
  · simp [hlabel, eq_comm]
  · simp only [bind_eq_ok_iff, mapError_eq_ok_iff, hlabel, false_and, not_false_eq_true, true_and,
      false_or, ne_eq, Prod.exists]
    refine exists_congr fun saved => exists_congr fun info => and_congr_right fun _ => ?_
    obtain ⟨n, _ | _⟩ := m.restore saved <;> simp

theorem Rpc.restoreSnapshot_eq_ok_iff {modules : ModuleStore} {snapshots : SnapshotStore}
    {id : ModuleId} {label : String} {m m' : Machine} :
    restoreSnapshot { modules, snapshots := some snapshots } id label m = .ok m'
      ↔ snapshots.Restores id label m m' := by
  have hstored : Storage.loadSnapshot { modules, snapshots := some snapshots } id label
      = (snapshots.load id label).mapError (·.toFailure) := rfl
  constructor
  · intro h
    by_cases hlabel : label = ""
    · rw [restoreSnapshot, if_pos hlabel] at h
      exact .inl ⟨hlabel, (Except.ok.inj h).symm⟩
    · obtain ⟨saved, info, hload, hrestore⟩ := restoreSnapshot_eq_ok hlabel h
      rw [hstored, mapError_eq_ok_iff] at hload
      exact .inr ⟨hlabel, saved, info, hload, hrestore⟩
  · rintro (⟨hlabel, rfl⟩ | ⟨hlabel, saved, info, hload, hrestore⟩)
    · exact if_pos hlabel
    · rw [restoreSnapshot, if_neg hlabel, hstored, mapError_eq_ok_iff.mpr hload]
      dsimp only
      rw [hrestore]

theorem Machine.restore_create (mod : Module) (limit : UInt64) (saved : ByteArray) :
    (create mod limit).restore saved =
      match mod.arena.restore saved with
      | .error e => (create mod limit).refuse (.range e)
      | .ok a => ({ create mod limit with loaded := some ⟨mod.program, a⟩ }, .ok ()) :=
  rfl

/-- A fresh machine takes an arena whatever its module is called, and is idle with it. -/
theorem SnapshotStore.Restores.exists_rename {s : SnapshotStore} {id : ModuleId} {label : String}
    {mod : Module} {limit : UInt64} {m : Machine} (h : s.Restores id label (.create mod limit) m)
    (name : String) :
    ∃ n a, s.Restores id label (.create { mod with name } limit) n ∧ m.Idle mod limit a ∧
      n.Idle mod limit a ∧ a.mask = mod.arena.mask := by
  rcases h with ⟨hlabel, rfl⟩ | ⟨hlabel, saved, info, hload, hrestore⟩
  · exact ⟨_, mod.arena, .inl ⟨hlabel, rfl⟩, Machine.idle_create mod limit mod.name,
      Machine.idle_create mod limit name, rfl⟩
  · -- restoring looks at the arena only, which both machines have from the module
    have hrename := Machine.restore_create { mod with name } limit saved
    rw [Machine.restore_create] at hrestore
    cases harena : mod.arena.restore saved with
    | error e =>
      rw [harena] at hrestore
      cases hrestore
    | ok a =>
      rw [harena] at hrestore hrename
      cases hrestore
      refine ⟨_, a, .inr ⟨hlabel, saved, info, hload, hrename⟩, ⟨⟨rfl, rfl⟩, rfl, rfl, rfl, rfl⟩,
        ⟨⟨rfl, rfl⟩, rfl, rfl, rfl, rfl⟩, ?_⟩
      rw [Arena.restore] at harena
      split_ifs at harena
      exact Except.ok.inj harena ▸ rfl

/-! ## Preparing -/

namespace Job

/-- **A machine is prepared for a job**: the module that the reference stands for is loaded under
some name, and its machine takes the arena to start from. -/
def Prepares (j : Job) (modules : ModuleStore) (snapshots : SnapshotStore) (id : ModuleId)
    (name : String) (m : Machine) : Prop :=
  modules.Refers j.ref id ∧ ∃ image mod, modules.get id = .ok image ∧
    Module.load name image = .ok mod ∧ snapshots.Restores id j.restore (.create mod j.limit) m

section

variable {j : Job} {modules : ModuleStore} {snapshots : SnapshotStore} {id : ModuleId}
  {name : String} {m : Machine}

/-- **The name of a module does not matter** for what its machine starts from. -/
theorem Prepares.exists_rename (h : j.Prepares modules snapshots id name m) (name' : String) :
    ∃ n mod a, j.Prepares modules snapshots id name' n ∧ m.Idle mod j.limit a ∧
      n.Idle mod j.limit a ∧ a.bytes.size ≤ Zstd.maxWindow := by
  obtain ⟨href, image, mod, himage, hload, hrestores⟩ := h
  obtain ⟨n, a, hrename, hm, hn, hmask⟩ := hrestores.exists_rename name'
  refine ⟨n, mod, a, ⟨href, image, _, himage, Module.load_rename hload name', hrename⟩, hm, hn, ?_⟩
  have hsize := Module.size_arena_le hload
  rw [mod.arena.size_bytes, ← hmask, ← a.size_bytes] at hsize
  exact Nat.le_trans hsize (by decide)

end

end Job

theorem Machine.load?_eq_ok_iff {name : String} {image : ByteArray} {limit : UInt64} {m : Machine} :
    load? true name image limit = .ok m ↔
      ∃ mod, Module.load name image = .ok mod ∧ m = .create mod limit := by
  refine ⟨Rpc.exists_load_of_load?, ?_⟩
  rintro ⟨mod, hload, rfl⟩
  rw [load?, hload]
  rfl

/-! ### On the command line -/

/-- **The command line prepares a machine** under the reference. -/
theorem Cli.prepared_eq_ok_iff {j : Job} {modules : ModuleStore} {snapshots : SnapshotStore}
    {id : ModuleId} {m : Machine} (hopen : modules.requireOpen = .ok ()) :
    prepared modules snapshots j.cliRequest = .ok (m, id) ↔
      j.Prepares modules snapshots id j.ref m := by
  rw [prepared]
  simp only [bind_eq_ok_iff, mapError_eq_ok_iff, Machine.load?_eq_ok_iff, Prod.exists,
    restoredFrom_eq_ok_iff]
  constructor
  · rintro ⟨image, id', hfetch, fresh, ⟨mod, hload, rfl⟩, m', hrestores, hpair⟩
    obtain ⟨rfl, rfl⟩ := Prod.mk.inj (Except.ok.inj hpair)
    obtain ⟨href, himage⟩ := (fetch_eq_ok_iff hopen).mp hfetch
    exact ⟨href, image, mod, himage, hload, hrestores⟩
  · rintro ⟨href, image, mod, himage, hload, hrestores⟩
    exact ⟨image, id, (fetch_eq_ok_iff hopen).mpr ⟨href, himage⟩, _, ⟨mod, hload, rfl⟩, m,
      hrestores, rfl⟩

/-! ### On a server -/

namespace Job

/-- The options of a job in a request. -/
def options (j : Job) : JsonValue :=
  .object [("command", .ofInt j.command.toInt),
    ("args", .array (j.args.map fun i => .ofInt i.toInt)),
    ("maxInstructions", .ofNat j.limit.toNat), ("restore", .string j.restore),
    ("save", .string j.save)]

/-- The parameters that ask a server for a job. -/
def params (j : Job) : JsonValue :=
  .array [.string j.ref, j.options]

/-- What the options say. -/
def callConfig (j : Job) : Rpc.CallConfig where
  command := j.command.toInt
  buffer := j.args.map Int32.toInt
  argCount := j.args.length
  maxInstructions := some j.limit
  restore := j.restore
  save := j.save

theorem readArgs?_ofArgs (c : Rpc.CallConfig) (hc : c.buffer = []) (is : List Int32) :
    c.readArgs? (.array (is.map fun i => .ofInt i.toInt))
      = some { c with buffer := is.map Int32.toInt, argCount := is.length } := by
  simpa [Function.comp_def] using Rpc.readArgs?_ofWords c hc (is.map Int32.toUInt32)

theorem ofJson?_options (j : Job) : Rpc.CallConfig.ofJson? j.options = some j.callConfig := by
  have hcommand : ∀ current, (JsonValue.ofInt j.command.toInt).readInt? Rpc.CallConfig.minWord
      Rpc.CallConfig.maxWord current = some j.command.toInt := fun current =>
    Rpc.readInt?_ofInt current j.command.le_toInt (Int.le_of_lt_add_one j.command.toInt_lt)
  have hlimit : (JsonValue.ofNat j.limit.toNat).readNat? 18446744073709551615
      = some (some j.limit.toNat) :=
    Rpc.readNat?_ofNat (Nat.le_of_lt_succ j.limit.toNat_lt)
  simp [Rpc.CallConfig.ofJson?, options, JsonValue.toMembers?, Rpc.readMember?_command,
    Rpc.readMember?_args, Rpc.readMember?_maxInstructions, Rpc.readMember?_restore,
    Rpc.readMember?_save, hcommand, hlimit, readArgs?_ofArgs, JsonValue.readText?, callConfig]

theorem configArgument_options (j : Job) :
    Rpc.configArgument [.string j.ref, j.options] Rpc.CallConfig.ofJson? = .ok j.callConfig := by
  have hread : Rpc.CallConfig.ofJson? (Rpc.argument [.string j.ref, j.options] 1)
      = some j.callConfig := j.ofJson?_options
  rw [Rpc.configArgument, hread]

theorem args_callConfig (j : Job) : j.callConfig.args = j.args.map Int32.toInt := by
  rw [Rpc.CallConfig.args, callConfig]
  exact List.take_of_length_le (by simp)

end Job

theorem Rpc.resolveModule_eq_ok_iff [Zstd.Compressor] {modules : ModuleStore}
    (hmodules : modules.Built) {snapshots : Option SnapshotStore} {ref : String}
    {rest : List JsonValue} {record : ModuleRecord} :
    resolveModule { modules, snapshots } (.string ref :: rest) = .ok record ↔
      modules.Refers ref record.id ∧ modules.record record.id = .ok record := by
  obtain ⟨log, hlog⟩ := hmodules.reflects
  constructor
  · intro h
    obtain ⟨ref', hword, hid, hrecord⟩ := resolveId_of_resolveModule hlog h
    obtain rfl : ref' = ref := by
      rw [wordArgument] at hword
      split at hword
      · contradiction
      · exact (Except.ok.inj hword).symm
    exact ⟨(resolveId_eq_ok_iff hmodules.requireOpen rfl).mp hid,
      Storage.eq_ok_of_onModules hrecord⟩
  · rintro ⟨href, hget⟩
    have hword : wordArgument (.string ref :: rest) 0 "module" = .ok ref := by
      simp [wordArgument, textArgument, argument, JsonValue.readText?, hmodules.ne_empty href]
    have hid : resolveId { modules, snapshots } ref = .ok record.id :=
      (resolveId_eq_ok_iff hmodules.requireOpen rfl).mpr href
    have hrecord : Storage.moduleRecord { modules, snapshots } record.id = .ok record :=
      mapError_eq_ok_iff.mpr hget
    simp [resolveModule, hword, hid, hrecord, bind, Except.bind, pure, Except.pure]

/-- **A server prepares a machine** under the stored name, if there are not too many arguments. -/
theorem Rpc.prepareCall_eq_ok_iff [Zstd.Compressor] {j : Job} {modules : ModuleStore}
    (hmodules : modules.Built) {snapshots : SnapshotStore} {server : Config} {p : PreparedCall} :
    prepareCall server { modules, snapshots := some snapshots } j.params = .ok p ↔
      p.config = j.callConfig ∧ j.args.length ≤ maxCallArgs ∧
        modules.record p.record.id = .ok p.record ∧
        j.Prepares modules snapshots p.record.id p.record.name p.machine := by
  have hparams : positional j.params 1 "module" = .ok [.string j.ref, j.options] := rfl
  have hlimit : j.callConfig.maxInstructions.getD server.maxInstructions = j.limit := rfl
  have hargs : j.callConfig.args.length = j.args.length := by
    rw [j.args_callConfig, List.length_map]
  have hget : ∀ id, Storage.getModule { modules, snapshots := some snapshots } id
      = (modules.get id).mapError ModuleStore.Error.toFailure := fun _ => rfl
  constructor
  · intro h
    have hcount : j.args.length ≤ maxCallArgs := by
      refine Nat.not_lt.mp fun hlt => ?_
      simp [prepareCall, hparams, j.configArgument_options, hargs, hlt, bind, Except.bind, throw,
        throwThe, MonadExceptOf.throw] at h
    obtain ⟨args, image, fresh, hargs, hconfig, hrecord, himage, hfresh, hrestored⟩ :=
      prepareCall_eq_ok h
    obtain rfl : [.string j.ref, j.options] = args := Except.ok.inj hargs
    obtain hconfig : j.callConfig = p.config :=
      Except.ok.inj (j.configArgument_options.symm.trans hconfig)
    rw [← hconfig] at hfresh hrestored
    obtain ⟨href, hrecord⟩ := (resolveModule_eq_ok_iff hmodules).mp hrecord
    obtain ⟨mod, hload, rfl⟩ := exists_load_of_load? hfresh
    exact ⟨hconfig.symm, hcount, hrecord, href, image, mod, Storage.eq_ok_of_onModules himage,
      hload, restoreSnapshot_eq_ok_iff.mp hrestored⟩
  · obtain ⟨record, config, m⟩ := p
    rintro ⟨rfl, hcount, hrecord, href, image, mod, himage, hload, hrestores⟩
    have hresolve : resolveModule { modules, snapshots := some snapshots }
        [.string j.ref, j.options] = .ok record :=
      (resolveModule_eq_ok_iff hmodules).mpr ⟨href, hrecord⟩
    have hfresh : Machine.load? true record.name image j.limit = .ok (.create mod j.limit) :=
      Machine.load?_eq_ok_iff.mpr ⟨mod, hload, rfl⟩
    dsimp only at himage
    have hrestored : restoreSnapshot { modules, snapshots := some snapshots } record.id
        j.callConfig.restore (.create mod j.limit) = .ok m :=
      restoreSnapshot_eq_ok_iff.mpr hrestores
    simp [prepareCall, hparams, j.configArgument_options, hargs, hcount, hresolve, hget, himage,
      hlimit, hfresh, hrestored, bind, Except.bind, Except.mapError, pure, Except.pure]

end BytecodeHost
