import BytecodeHost.Proofs.Cli.Preparing
import BytecodeHost.Proofs.Path

/-!
# The command line and a server

A module can be called from the command line and through a server. These are two programs with
checks in another order, but a call that comes through has to pass the same ones. So what a job
comes to is said once, without either of them: a machine that is prepared for it takes a turn, and
what the turn leaves behind can be saved. Both programs do what a job comes to, and what one of them
does with success a job comes to. That both succeed together follows, and that they print and save
the same.

Failures are not compared. A command that fails when it saves has printed its output already, and a
server puts failures in other words.

## Main definitions

* `Job.Comes` — a job comes to a turn and leaves an arena behind
* `Cli.LeavesClock`, `Rpc.LeavesClock` — a call does not come to the clock trap
* `SnapshotStore.kept` — a snapshot store with one more arena
* `Job.EndsAlike` — the command line and a server end a job alike

## Main results

* `Job.Comes.exists_run`, `Job.exists_comes_of_run` — what the command line does is what a job comes
  to
* `Job.Comes.callModule_eq`, `Job.exists_comes_of_callModule` — so is what a server does
* `resolve_or_error` — references are resolved alike
* `Job.command_line_eq_server` — the command line and a server do the same
-/

namespace BytecodeHost

/-! ## Saving -/

namespace SnapshotStore

variable [Zstd.Compressor]

/-- A snapshot store in which an arena is saved for a module under a label, if there is a label. -/
def kept (s : SnapshotStore) (now : Int) (id : ModuleId) (label : String) (arena : ByteArray) :
    SnapshotStore :=
  if label = "" then s
  else { s with entries := s.entries.insert (id, label) (entryOf now id label arena) }

variable {s s' : SnapshotStore} {now : Int} {id : ModuleId} {label : String} {arena : ByteArray}

theorem isLabel_of_save {info : Snapshot.Info} (h : s.save now id label arena = .ok (s', info)) :
    Snapshot.isLabel label = true := by
  cases hlabel : Snapshot.isLabel label with
  | true => rfl
  | false =>
    simp [save, hlabel, bind, Except.bind, throw, throwThe, MonadExceptOf.throw] at h

/-- What is kept can be loaded. -/
theorem load_kept [Zstd.LawfulCompressor] (hopen : s.closed = false) (hlabel : label ≠ "")
    (hsize : arena.size ≤ Zstd.maxWindow) :
    (s.kept now id label arena).load id label = .ok (arena, (entryOf now id label arena).info) := by
  rw [kept, if_neg hlabel]
  apply load_of_get?
  · exact hopen
  · rw [Table.get?_insert, if_pos rfl]
  · exact hsize

end SnapshotStore

/-- A label under which something can be saved, or none. -/
def Snapshot.Permits (label : String) : Prop :=
  label = "" ∨ isLabel label = true

section

variable [Zstd.Compressor] {modules : ModuleStore} {snapshots : SnapshotStore} {id : ModuleId}
  {label : String} {m : Machine} {arena : ByteArray}

theorem Cli.exists_run_saveArena {w : Setting} {files : FileSystem}
    (h : w.Finds files modules snapshots) (hopen : snapshots.closed = false)
    (harena : m.snapshot = (m, .ok arena)) (id : ModuleId) (hlabel : Snapshot.Permits label) :
    ∃ files', (saveArena w id label m).run files = (.ok (), files') ∧
      w.Finds files' modules (snapshots.kept w.env.now id label arena) ∧
      ∀ place ≠ FileSystem.locationOf w.config.snapshotsPath,
        files'.node? place = files.node? place := by
  rw [saveArena, SnapshotStore.kept]
  split_ifs with hempty
  · exact ⟨files, rfl, h, fun _ _ => rfl⟩
  · have hlabel := hlabel.resolve_left hempty
    refine ⟨_, ?_, h.keepSnapshots _⟩
    rw [Step.run_bind_ok (run_snapshotStore h hopen), harena,
      Step.run_bind_ok (x := Step.ofExcept _) rfl,
      SnapshotStore.save_of_isLabel hopen _ _ hlabel]
    rfl

theorem Cli.permits_of_run_saveArena {w : Setting} {files files' : FileSystem}
    (h : (saveArena w id label m).run files = (.ok (), files')) : Snapshot.Permits label := by
  rw [saveArena] at h
  split_ifs at h with hempty
  · exact .inl hempty
  · obtain ⟨store, files₁, -, h⟩ := Step.exists_of_run_bind h
    obtain ⟨arena, files₂, -, h⟩ := Step.exists_of_run_bind h
    obtain ⟨⟨store', info⟩, files₃, hsave, -⟩ := Step.exists_of_run_bind h
    have hsave : (store.save w.env.now id label arena).mapError (·.toFailure)
        = .ok (store', info) := congrArg Prod.fst hsave
    exact .inr (SnapshotStore.isLabel_of_save (eq_ok_of_mapError hsave))

theorem Rpc.saveArena_eq_ok (hopen : snapshots.closed = false)
    (harena : m.snapshot = (m, .ok arena)) (now : Int) (id : ModuleId)
    (hlabel : Snapshot.Permits label) :
    saveArena { modules, snapshots := some snapshots } now id label m
      = ({ modules, snapshots := some (snapshots.kept now id label arena) }, .ok ()) := by
  rw [saveArena, SnapshotStore.kept]
  split_ifs with hempty
  · rfl
  · have hlabel := hlabel.resolve_left hempty
    rw [harena]
    simp only [Storage.saveSnapshot, Storage.onSnapshots, Storage.attempt,
      SnapshotStore.save_of_isLabel hopen _ _ hlabel]
    rfl

theorem Rpc.permits_of_saveArena {s s' : Storage} {now : Int}
    (h : saveArena s now id label m = (s', .ok ())) : Snapshot.Permits label := by
  rw [saveArena] at h
  split_ifs at h with hempty
  · exact .inl hempty
  · cases harena : m.snapshot with
    | mk m' r =>
      rw [harena] at h
      cases r with
      | error f => cases h
      | ok arena =>
        dsimp only at h
        cases hsave : s.saveSnapshot now id label arena with
        | error f =>
          rw [hsave] at h
          dsimp only at h
          split_ifs at h <;> cases h
        | ok saved =>
          obtain ⟨saved, harenas, -⟩ := exists_of_map_eq_ok hsave
          obtain ⟨store, -, hsave⟩ := Storage.exists_of_onSnapshots harenas
          exact .inr (SnapshotStore.isLabel_of_save hsave)

end

/-! ## Turns -/

theorem waits_none (instructions : Nat) : Waits none instructions :=
  fun _ h => nomatch h

namespace Job

/-- The call that a job makes. -/
def invocation (j : Job) : Invocation :=
  ⟨j.command.toUInt32, j.args.map Int32.toUInt32, none⟩

/-- **A job comes to a turn** of a machine that is prepared for it. The turn leaves an arena behind,
and the label to save it under is in order. -/
structure Comes (j : Job) (modules : ModuleStore) (snapshots : SnapshotStore) (id : ModuleId)
    (t : Turn) (arena : ByteArray) : Prop where
  invocation : t.invocation none = j.invocation
  permits : Snapshot.Permits j.save
  takes : ∃ (name : String) (m : Machine) (out : OutputBuffer) (m' : Machine)
    (out' : OutputBuffer), j.Prepares modules snapshots id name m ∧ out.limit ≤ 0 ∧
      m.Takes out t m' out' ∧ m'.snapshot = (m', .ok arena)

section

variable {j : Job} {modules : ModuleStore} {snapshots : SnapshotStore} {id : ModuleId} {t : Turn}
  {name : String} {arena : ByteArray} {m m' : Machine}

/-- **Machines that are prepared for a job take its turn**, whatever its module is called. -/
theorem Prepares.exists_call (h : j.Prepares modules snapshots id name m) {out out' : OutputBuffer}
    (hout : out.limit ≤ 0) (htakes : m.Takes out t m' out') (name' : String) {env : Environment}
    (hfuel : t.env.fuel ≤ env.fuel) {buffer : OutputBuffer} (hbuffer : buffer.limit ≤ 0) :
    ∃ n n' arena, j.Prepares modules snapshots id name' n ∧
      n.callStandard env buffer (t.invocation none)
        = some (n', buffer.print t.printed, ⟨t.value, none⟩) ∧
      n'.status.meter.used = t.instructions ∧ m'.snapshot = (m', .ok arena) ∧
      n'.snapshot = (n', .ok arena) ∧ arena.size ≤ Zstd.maxWindow ∧
      t.args.length ≤ maxCallArgs := by
  obtain ⟨n, mod, a, hn, hm, hidle, hsize⟩ := h.exists_rename name'
  obtain ⟨-, n', b, hcall, hinstructions, hmask, hm', hn'⟩ :=
    htakes.exists_callStandard hm hidle hout hbuffer hfuel (waits_none _)
  refine ⟨n, n', b.bytes, hn, hcall, hinstructions, ?_, ?_, ?_, hm.length_args_le htakes.call⟩
  · rw [Machine.snapshot, hm'.loaded]
  · rw [Machine.snapshot, hn'.loaded]
  · rwa [b.size_bytes, hmask, ← a.size_bytes]

/-- A call of a machine that is prepared for a job is a turn that the job comes to, if it succeeds
without the clock. -/
theorem Prepares.exists_comes (h : j.Prepares modules snapshots id name m) {limit : Int}
    (hlimit : limit ≤ 0) {env : Environment} {out : OutputBuffer} {value : UInt32}
    (hcall : m.callStandard env { limit } j.invocation = some (m', out, ⟨value, none⟩))
    (hclock : Point.Avoids (standardRegistry env).host StandardTrap.clockNumber
      (.start m { limit } j.invocation))
    (hsave : Snapshot.Permits j.save) :
    ∃ (t : Turn) (arena : ByteArray), t.env = env ∧ j.Comes modules snapshots id t arena := by
  have htakes : m.Takes { limit } ⟨env, j.command.toUInt32, j.args.map Int32.toUInt32, value,
      m'.status.meter.used, out.bytes⟩ m' out :=
    ⟨hcall, hclock, rfl, ByteArray.empty_append.symm⟩
  have hout : ({ limit } : OutputBuffer).limit ≤ 0 := hlimit
  obtain ⟨-, -, arena, -, -, -, harena, -⟩ := h.exists_call hout htakes name (Nat.le_refl _) hout
  exact ⟨_, arena, rfl, rfl, hsave, name, m, _, m', out, h, hout, htakes, harena⟩

/-- Every machine that is prepared for a job makes the call that the job comes to. -/
theorem Comes.exists_call (h : j.Comes modules snapshots id t arena) (name : String)
    {env : Environment} (hfuel : t.env.fuel ≤ env.fuel) {limit : Int} (hlimit : limit ≤ 0) :
    ∃ n n' out, j.Prepares modules snapshots id name n ∧
      n.callStandard env { limit } j.invocation = some (n', out, ⟨t.value, none⟩) ∧
      out.bytes = t.printed ∧ out.truncated = false ∧ n'.status.meter.used = t.instructions ∧
      n'.snapshot = (n', .ok arena) := by
  obtain ⟨name', m, out, m', out', hm, hout, htakes, harena⟩ := h.takes
  have hbuffer : ({ limit } : OutputBuffer).limit ≤ 0 := hlimit
  obtain ⟨n, n', arena', hn, hcall, hinstructions, harena', hsnapshot, -, -⟩ :=
    hm.exists_call hout htakes name hfuel hbuffer
  obtain rfl : arena' = arena :=
    Except.ok.inj (Prod.mk.inj (harena'.symm.trans harena)).2
  rw [h.invocation] at hcall
  exact ⟨n, n', _, hn, hcall, ByteArray.empty_append, rfl, hinstructions, hsnapshot⟩

/-- What a job leaves behind is small enough to be saved. -/
theorem Comes.size_le (h : j.Comes modules snapshots id t arena) : arena.size ≤ Zstd.maxWindow := by
  obtain ⟨name, m, out, m', out', hm, hout, htakes, harena⟩ := h.takes
  obtain ⟨-, -, arena', -, -, -, harena', -, hsize, -⟩ :=
    hm.exists_call hout htakes name (Nat.le_refl _) hout
  obtain rfl : arena' = arena :=
    Except.ok.inj (Prod.mk.inj (harena'.symm.trans harena)).2
  exact hsize

/-- A job that comes to a turn has no more arguments than there is room for. -/
theorem Comes.length_args_le (h : j.Comes modules snapshots id t arena) :
    j.args.length ≤ maxCallArgs := by
  obtain ⟨name, m, out, m', out', hm, hout, htakes, harena⟩ := h.takes
  obtain ⟨-, -, -, -, -, -, -, -, -, hargs⟩ :=
    hm.exists_call hout htakes name (Nat.le_refl _) hout
  have hsame : t.args = j.args.map Int32.toUInt32 := congrArg Invocation.args h.invocation
  rwa [hsame, List.length_map] at hargs

theorem Comes.refers (h : j.Comes modules snapshots id t arena) : modules.Refers j.ref id := by
  obtain ⟨name, m, out, m', out', ⟨href, -⟩, -⟩ := h.takes
  exact href

theorem Comes.exists_get (h : j.Comes modules snapshots id t arena) :
    ∃ image, modules.get id = .ok image := by
  obtain ⟨name, m, out, m', out', ⟨-, image, mod, himage, -⟩, -⟩ := h.takes
  exact ⟨image, himage⟩

end

end Job

/-! ## The clock -/

/-- A run of a module does not come to the clock trap. -/
def Cli.LeavesClock (w : Setting) (args : List String) (files : FileSystem) : Prop :=
  ∀ r m id files', RunRequest.ofArgs w args = .ok r →
    (prepare w r).run files = (.ok (m, id), files') →
      Point.Avoids (standardRegistry w.env).host StandardTrap.clockNumber
        (.start m { limit := 0 } (r.invocation w))

/-- A call that a server is asked for does not come to the clock trap. -/
def Rpc.LeavesClock (server : Config) (env : Environment) (canceled : Bool) (s : Storage)
    (params : JsonValue) : Prop :=
  ∀ p, prepareCall server s params = .ok p →
    Point.Avoids (standardRegistry env).host StandardTrap.clockNumber
      (.start p.machine { limit := server.maxOutput }
        (p.invocation (env.interruption canceled (p.config.timeout server.callTimeout))))

namespace Job

section

variable {j : Job} {modules : ModuleStore} {snapshots : SnapshotStore} {w : Cli.Setting}
  {files : FileSystem} {e : FileError} {server : Rpc.Config} {env : Environment}

theorem invocation_cliRequest (j : Job) (w : Cli.Setting) :
    j.cliRequest.invocation w = j.invocation :=
  rfl

theorem invocation_callConfig {p : Rpc.PreparedCall} (hconfig : p.config = j.callConfig)
    (env : Environment) :
    p.invocation (env.interruption false (p.config.timeout 0)) = j.invocation := by
  have hword : ∀ i : Int32, Rpc.wordOfInt i.toInt = i.toUInt32 := fun i =>
    congrArg Int32.toUInt32 (Int32.ofInt_toInt i)
  have htimeout : j.callConfig.timeout 0 = 0 := Rpc.timeout_of_timeoutMs rfl 0
  rw [Rpc.PreparedCall.invocation, hconfig, htimeout, args_callConfig, List.map_map]
  simp [callConfig, hword, Environment.interruption, Function.comp_def, invocation]

variable [Zstd.Compressor]

/-- The command line makes the call of a job on the machine that it prepares. -/
theorem leavesClock_run_iff (hmodules : modules.Built) (hopen : snapshots.closed = false)
    (hfinds : w.Finds files modules snapshots)
    (hread : files.read (FileSystem.locationOf w.here) j.ref = .error e)
    (he : e.problem = .notFound) (href : j.ref.toList.head? ≠ some '-') :
    Cli.LeavesClock w j.cliArgs files ↔
      ∀ id m, j.Prepares modules snapshots id j.ref m →
        Point.Avoids (standardRegistry w.env).host StandardTrap.clockNumber
          (.start m { limit := 0 } j.invocation) := by
  have hprepare := Cli.run_prepare (r := j.cliRequest) hfinds hmodules.access hopen hread he
  constructor
  · intro h id m hm
    rw [← Cli.prepared_eq_ok_iff hmodules.requireOpen] at hm
    rw [hm] at hprepare
    exact h _ m id files (ofArgs_cliArgs href w) hprepare
  · intro h r m id files' hargs hrun
    obtain rfl := Except.ok.inj (hargs.symm.trans (ofArgs_cliArgs href w))
    have hprepared := (Prod.mk.inj (hprepare.symm.trans hrun)).1
    exact h id m ((Cli.prepared_eq_ok_iff hmodules.requireOpen).mp hprepared)

/-- A server makes the same call. -/
theorem leavesClock_callModule_iff (hmodules : modules.Built) (htimeout : server.callTimeout = 0) :
    Rpc.LeavesClock server env false { modules, snapshots := some snapshots } j.params ↔
      ∀ record m, j.args.length ≤ maxCallArgs → modules.record record.id = .ok record →
        j.Prepares modules snapshots record.id record.name m →
          Point.Avoids (standardRegistry env).host StandardTrap.clockNumber
            (.start m { limit := server.maxOutput } j.invocation) := by
  rw [Rpc.LeavesClock, htimeout]
  constructor
  · intro h record m hargs hrecord hm
    have hprepare : Rpc.prepareCall server { modules, snapshots := some snapshots } j.params
        = .ok ⟨record, j.callConfig, m⟩ :=
      (Rpc.prepareCall_eq_ok_iff hmodules).mpr ⟨rfl, hargs, hrecord, hm⟩
    have hclock := h _ hprepare
    rwa [invocation_callConfig rfl] at hclock
  · intro h p hprepare
    obtain ⟨hconfig, hargs, hrecord, hm⟩ := (Rpc.prepareCall_eq_ok_iff hmodules).mp hprepare
    rw [invocation_callConfig hconfig]
    exact h p.record p.machine hargs hrecord hm

end

end Job

/-! ## Both drivers -/

namespace Job

section

variable [Zstd.Compressor] {j : Job} {modules : ModuleStore} {snapshots : SnapshotStore}
  {id : ModuleId} {t : Turn} {arena : ByteArray} {w : Cli.Setting} {files : FileSystem}
  {e : FileError} {server : Rpc.Config} {env : Environment}

/-- **The command line does what a job comes to.** -/
theorem Comes.exists_run (h : j.Comes modules snapshots id t arena) (hmodules : modules.Built)
    (hopen : snapshots.closed = false) (hfinds : w.Finds files modules snapshots)
    (hread : files.read (FileSystem.locationOf w.here) j.ref = .error e)
    (he : e.problem = .notFound) (href : j.ref.toList.head? ≠ some '-')
    (hfuel : t.env.fuel ≤ w.env.fuel) :
    ∃ files', Cli.run w j.cliArgs files
        = some { files := files', output := ⟨t.printed⟩ ++ Cli.resultLine t.value } ∧
      w.Finds files' modules (snapshots.kept w.env.now id j.save arena) ∧
      ∀ place ≠ FileSystem.locationOf w.config.snapshotsPath,
        files'.node? place = files.node? place := by
  obtain ⟨m, m', out, hm, hcall, hprinted, -, -, harena⟩ :=
    h.exists_call j.ref hfuel (Int.le_refl 0)
  obtain ⟨files', hsave, hkept⟩ := Cli.exists_run_saveArena hfinds hopen harena id h.permits
  refine ⟨files', ?_, hkept⟩
  have hprepare : (Cli.prepare w j.cliRequest).run files = (.ok (m, id), files) := by
    rw [Cli.run_prepare (r := j.cliRequest) hfinds hmodules.access hopen hread he,
      (Cli.prepared_eq_ok_iff hmodules.requireOpen).mpr hm]
  have hlabel : j.cliRequest.options.save = j.save := rfl
  rw [Cli.run, ofArgs_cliArgs href]
  dsimp only
  rw [hprepare]
  dsimp only
  rw [invocation_cliRequest, hcall]
  dsimp only
  rw [hlabel, hsave]
  dsimp only
  rw [hprinted]

/-- What the command line does with success, a job comes to. -/
theorem exists_comes_of_run (hmodules : modules.Built) (hopen : snapshots.closed = false)
    (hfinds : w.Finds files modules snapshots)
    (hread : files.read (FileSystem.locationOf w.here) j.ref = .error e)
    (he : e.problem = .notFound) (href : j.ref.toList.head? ≠ some '-')
    (hclock : Cli.LeavesClock w j.cliArgs files) {o : Cli.Outcome}
    (h : Cli.run w j.cliArgs files = some o) (ho : o.failure = none) :
    ∃ (id : ModuleId) (t : Turn) (arena : ByteArray), t.env = w.env ∧
      j.Comes modules snapshots id t arena := by
  rw [Cli.run, ofArgs_cliArgs href] at h
  dsimp only at h
  rw [Cli.run_prepare (r := j.cliRequest) hfinds hmodules.access hopen hread he] at h
  cases hprepared : Cli.prepared modules snapshots j.cliRequest with
  | error f =>
    rw [hprepared] at h
    obtain rfl := Option.some.inj h
    contradiction
  | ok machine =>
    obtain ⟨m, id⟩ := machine
    rw [hprepared] at h
    dsimp only at h
    rw [invocation_cliRequest] at h
    have hm := (Cli.prepared_eq_ok_iff hmodules.requireOpen).mp hprepared
    have hclock := (leavesClock_run_iff hmodules hopen hfinds hread he href).mp hclock id m hm
    -- the fuel does not suffice, the call succeeds, or it fails
    split at h
    · contradiction
    · rename_i m' out value hcall
      cases hsave : (Cli.saveArena w id j.cliRequest.options.save m').run files with
      | mk r files' =>
        rw [hsave] at h
        cases r with
        | error f =>
          obtain rfl := Option.some.inj h
          contradiction
        | ok _ =>
          obtain ⟨t, arena, ht, hcomes⟩ := hm.exists_comes (Int.le_refl 0) hcall hclock
            (Cli.permits_of_run_saveArena hsave)
          exact ⟨id, t, arena, ht, hcomes⟩
    · obtain rfl := Option.some.inj h
      contradiction

/-- **A server does what a job comes to.** -/
theorem Comes.callModule_eq [Zstd.LawfulCompressor] (h : j.Comes modules snapshots id t arena)
    (hmodules : modules.Built) (hopen : snapshots.closed = false) (houtput : server.maxOutput ≤ 0)
    (htimeout : server.callTimeout = 0) (hfuel : t.env.fuel ≤ env.fuel) :
    Rpc.callModule server env false { modules, snapshots := some snapshots } j.params
      = some ({ modules, snapshots := some (snapshots.kept env.now id j.save arena) },
        .ok (.called (Rpc.summaryOf t id j.save))) := by
  obtain ⟨image, himage⟩ := h.exists_get
  obtain ⟨record, hrecord, rfl⟩ := hmodules.exists_get_iff.mp ⟨image, himage⟩
  -- the machine has the stored name, wherever the turn was taken
  obtain ⟨m, m', out, hm, hcall, hprinted, htruncated, hinstructions, harena⟩ :=
    h.exists_call record.name hfuel houtput
  have hprepare : Rpc.prepareCall server { modules, snapshots := some snapshots } j.params
      = .ok ⟨record, j.callConfig, m⟩ :=
    (Rpc.prepareCall_eq_ok_iff hmodules).mpr ⟨rfl, h.length_args_le, hrecord, hm⟩
  have hsave : Rpc.saveArena { modules, snapshots := some snapshots } env.now record.id j.save m'
      = _ := Rpc.saveArena_eq_ok hopen harena env.now record.id h.permits
  rw [Rpc.callModule, hprepare, htimeout]
  dsimp only
  rw [invocation_callConfig rfl, hcall]
  simp only [Rpc.finishCall, callConfig, hsave, Rpc.summaryOf, hinstructions, hprinted, htruncated]

/-- What a server answers with a result, a job comes to. -/
theorem exists_comes_of_callModule (hmodules : modules.Built) (houtput : server.maxOutput ≤ 0)
    (htimeout : server.callTimeout = 0)
    (hclock : Rpc.LeavesClock server env false { modules, snapshots := some snapshots } j.params)
    {s : Storage} {r : Rpc.Result}
    (h : Rpc.callModule server env false { modules, snapshots := some snapshots } j.params
      = some (s, .ok r)) :
    ∃ (id : ModuleId) (t : Turn) (arena : ByteArray), t.env = env ∧
      j.Comes modules snapshots id t arena := by
  rw [Rpc.callModule] at h
  cases hprepare : Rpc.prepareCall server { modules, snapshots := some snapshots } j.params with
  | error f =>
    rw [hprepare] at h
    cases h
  | ok p =>
    obtain ⟨hconfig, hargs, hrecord, hm⟩ := (Rpc.prepareCall_eq_ok_iff hmodules).mp hprepare
    have hclock := (leavesClock_callModule_iff hmodules htimeout).mp hclock _ _ hargs hrecord hm
    rw [hprepare, htimeout] at h
    dsimp only at h
    rw [invocation_callConfig hconfig] at h
    split at h
    · contradiction
    · rename_i m' out result hcall
      obtain ⟨value, failure⟩ := result
      cases failure with
      | some f => cases h
      | none =>
        have h := Option.some.inj h
        rw [Rpc.finishCall] at h
        dsimp only at h
        cases hsave : Rpc.saveArena { modules, snapshots := some snapshots } env.now p.record.id
            p.config.save m' with
        | mk s' r' =>
          rw [hsave] at h
          cases r' with
          | error f => cases h
          | ok _ =>
            rw [hconfig] at hsave
            obtain ⟨t, arena, ht, hcomes⟩ := hm.exists_comes houtput hcall hclock
              (Rpc.permits_of_saveArena hsave)
            exact ⟨p.record.id, t, arena, ht, hcomes⟩

end

end Job

/-! ## The command line and a server -/

section

variable [Zstd.Compressor]

/-- The command line and a server end a job alike. The job leaves an arena behind. -/
structure Job.EndsAlike (j : Job) (modules : ModuleStore) (snapshots : SnapshotStore)
    (w : Cli.Setting) (files : FileSystem) (env : Environment) (o : Cli.Outcome) (s : Storage)
    (summary : Rpc.CallSummary) (arena : ByteArray) : Prop where
  /-- The module is the one that the reference stands for. -/
  refers : modules.Refers j.ref summary.moduleId
  /-- The command line prints the same output and then the value. -/
  output : o.output
    = summary.output ++ (">> " ++ toString summary.value.toInt32.toInt ++ "\n" : String)
  /-- The server has the snapshots from before and, if there is a label, the arena under it. -/
  storage :
    s = { modules, snapshots := some (snapshots.kept env.now summary.moduleId j.save arena) }
  /-- So has the command line, but for the time. -/
  finds : w.Finds o.files modules (snapshots.kept w.env.now summary.moduleId j.save arena)
  /-- Nothing else in the file system is different. -/
  others : ∀ place ≠ FileSystem.locationOf w.config.snapshotsPath,
    o.files.node? place = files.node? place
  /-- The arena can be loaded again. -/
  saved : j.save ≠ "" → ∀ now, ∃ info,
    (snapshots.kept now summary.moduleId j.save arena).load summary.moduleId j.save
      = .ok (arena, info)

variable [Zstd.LawfulCompressor] {modules : ModuleStore} {snapshots : SnapshotStore}
  {w : Cli.Setting} {files : FileSystem} {e : FileError}

/-- **References are resolved alike**, to what they stand for, or not at all. -/
theorem resolve_or_error (hmodules : modules.Built) (hfinds : w.Finds files modules snapshots)
    {ref : String} (hread : files.read (FileSystem.locationOf w.here) ref = .error e)
    (he : e.problem = .notFound) (enabled : Option SnapshotStore) (rest : List JsonValue) :
    (∃ image record, (Cli.resolve w ref).run files = (.ok (image, record.id), files) ∧
      Rpc.resolveModule { modules, snapshots := enabled } (.string ref :: rest) = .ok record ∧
      modules.Refers ref record.id) ∨
    (∃ f f', (Cli.resolve w ref).run files = (.error f, files) ∧
      Rpc.resolveModule { modules, snapshots := enabled } (.string ref :: rest) = .error f') := by
  rw [Cli.run_resolve hfinds hmodules.access hread he]
  cases hfetch : Cli.fetch modules ref with
  | ok found =>
    obtain ⟨image, id⟩ := found
    obtain ⟨href, himage⟩ := (Cli.fetch_eq_ok_iff hmodules.requireOpen).mp hfetch
    obtain ⟨record, hrecord, rfl⟩ := hmodules.exists_get_iff.mp ⟨image, himage⟩
    exact .inl ⟨image, record, rfl, (Rpc.resolveModule_eq_ok_iff hmodules).mpr ⟨href, hrecord⟩,
      href⟩
  | error f =>
    cases hresolve : Rpc.resolveModule { modules, snapshots := enabled } (.string ref :: rest) with
    | error f' => exact .inr ⟨f, f', rfl, rfl⟩
    | ok record =>
      obtain ⟨href, hrecord⟩ := (Rpc.resolveModule_eq_ok_iff hmodules).mp hresolve
      obtain ⟨image, himage⟩ := hmodules.exists_get_iff.mpr ⟨record, hrecord, rfl⟩
      rw [(Cli.fetch_eq_ok_iff hmodules.requireOpen).mpr ⟨href, himage⟩] at hfetch
      contradiction

/-- **The command line and a server do the same.** Let them have one module store, built by writes,
and one snapshot store, and let the reference of a job name no file and look like no option. Then
they resolve it alike. If no output is dropped, no timeout is set, the fuel is the same and the
clock is left alone, then the command line succeeds exactly if the server answers with a result. In
that case both end the job alike. -/
theorem Job.command_line_eq_server {ws : List ModuleStore.Write} {modules : ModuleStore}
    (hmodules : modules = .after {} (ws.map .write)) {snapshots : SnapshotStore}
    (hopen : snapshots.closed = false) {w : Cli.Setting} {files : FileSystem}
    (hfinds : w.Finds files modules snapshots) {j : Job} {e : FileError}
    (hread : files.read (FileSystem.locationOf w.here) j.ref = .error e)
    (he : e.problem = .notFound) (href : j.ref.toList.head? ≠ some '-') {server : Rpc.Config}
    (houtput : server.maxOutput ≤ 0) (htimeout : server.callTimeout = 0) {env : Environment}
    (hfuel : w.env.fuel = env.fuel) (hclock : Cli.LeavesClock w j.cliArgs files)
    (hclock' : Rpc.LeavesClock server env false { modules, snapshots := some snapshots } j.params) :
    ((∃ image record, (Cli.resolve w j.ref).run files = (.ok (image, record.id), files) ∧
        Rpc.resolveModule { modules, snapshots := some snapshots } [.string j.ref, j.options]
          = .ok record ∧ modules.Refers j.ref record.id) ∨
      (∃ f f', (Cli.resolve w j.ref).run files = (.error f, files) ∧
        Rpc.resolveModule { modules, snapshots := some snapshots } [.string j.ref, j.options]
          = .error f')) ∧
    ((∃ o, Cli.run w j.cliArgs files = some o ∧ o.failure = none) ↔
      ∃ s r, Rpc.callModule server env false { modules, snapshots := some snapshots } j.params
        = some (s, .ok r)) ∧
    (∀ o s r, Cli.run w j.cliArgs files = some o → o.failure = none →
      Rpc.callModule server env false { modules, snapshots := some snapshots } j.params
        = some (s, .ok r) →
      ∃ summary arena, r = .called summary ∧
        j.EndsAlike modules snapshots w files env o s summary arena) := by
  have hbuilt : modules.Built := hmodules ▸ ModuleStore.built_after_writes ws
  refine ⟨resolve_or_error hbuilt hfinds hread he _ _, ⟨?_, ?_⟩, ?_⟩
  · rintro ⟨o, hrun, ho⟩
    obtain ⟨id, t, arena, ht, hcomes⟩ :=
      exists_comes_of_run hbuilt hopen hfinds hread he href hclock hrun ho
    have hle : t.env.fuel ≤ env.fuel := Nat.le_of_eq (by rw [ht, hfuel])
    exact ⟨_, _, hcomes.callModule_eq hbuilt hopen houtput htimeout hle⟩
  · rintro ⟨s, r, hcall⟩
    obtain ⟨id, t, arena, ht, hcomes⟩ :=
      exists_comes_of_callModule hbuilt houtput htimeout hclock' hcall
    have hle : t.env.fuel ≤ w.env.fuel := Nat.le_of_eq (by rw [ht, hfuel])
    obtain ⟨files', hrun, -⟩ := hcomes.exists_run hbuilt hopen hfinds hread he href hle
    exact ⟨_, hrun, rfl⟩
  · intro o s r hrun ho hcall
    obtain ⟨id, t, arena, ht, hcomes⟩ :=
      exists_comes_of_run hbuilt hopen hfinds hread he href hclock hrun ho
    have hle : t.env.fuel ≤ w.env.fuel := Nat.le_of_eq (by rw [ht])
    obtain ⟨files', hrun', hkept, hothers⟩ :=
      hcomes.exists_run hbuilt hopen hfinds hread he href hle
    obtain rfl := Option.some.inj (hrun.symm.trans hrun')
    have hcall' : Rpc.callModule server env false { modules, snapshots := some snapshots } j.params
        = _ := hcomes.callModule_eq hbuilt hopen houtput htimeout (hfuel ▸ hle)
    obtain ⟨rfl, hr⟩ := Prod.mk.inj (Option.some.inj (hcall.symm.trans hcall'))
    obtain rfl := Except.ok.inj hr
    exact ⟨_, arena, rfl,
      { refers := hcomes.refers
        output := rfl
        storage := rfl
        finds := hkept
        others := hothers
        saved := fun hsave now => ⟨_, SnapshotStore.load_kept hopen hsave hcomes.size_le⟩ }⟩

end

/-! ### A sample -/

/-- A call of the module that is called "t". -/
def Job.tally : Job where
  ref := "t"
  command := 0
  save := "kept"
  limit := 20

/-- A command beside the stores. -/
def Cli.Setting.tally : Cli.Setting where
  here := ""
  config := { store := { path := "m" }, snapshots := { path := "s" } }
  env := { fuel := 100 }

/-- A file system with these stores and nothing else. -/
def FileSystem.tally (modules : ModuleStore) (snapshots : SnapshotStore) : FileSystem where
  nodes := (Table.empty.insert ["m"] (.modules modules)).insert ["s"] (.directory (some snapshots))

/-- A server without a timeout. -/
def Rpc.Config.tally : Rpc.Config where
  maxOutput := 0
  callTimeout := 0

theorem Cli.finds_tally (modules : ModuleStore) (snapshots : SnapshotStore) :
    Setting.tally.Finds (.tally modules snapshots) modules snapshots := by
  have hmodules : Setting.tally.config.storePath = "m" := if_pos (.inr rfl)
  have hsnapshots : Setting.tally.config.snapshotsPath = "s" := if_pos (.inr rfl)
  refine ⟨?_, ⟨none, ?_⟩, ?_⟩
  · rw [hmodules, FileSystem.locationOf_of_isName (by decide)]
    rfl
  · rw [hmodules, FileSystem.locationOf_of_isName (by decide)]
    rfl
  · rw [hsnapshots, FileSystem.locationOf_of_isName (by decide)]
    rfl

theorem FileSystem.read_tally (modules : ModuleStore) (snapshots : SnapshotStore) :
    (FileSystem.tally modules snapshots).read (locationOf "") "t"
      = .error ⟨"open", "t", .notFound⟩ := by
  have hslash : '/' ∉ "t".toList := by decide
  have hstart : start [] "t" = [] := by rw [start, Path.isAbsolute_eq_false hslash]; rfl
  have hcheck : checkPath "t" = .ok () := rfl
  rw [locationOf_empty, read, find, locate, hcheck, Path.splitOn_eq_singleton hslash, hstart]
  rfl

/-- A store to which the tally was put. -/
structure ModuleStore.HasTally (s : ModuleStore) (r : ModuleRecord) (mod : Module) : Prop where
  writes : s = .after {} ([.put 0 "t" Module.tallyImage].map .write)
  names : s.names.get? "t" = some r.id
  record_name : r.name = "t"
  record : s.record r.id = .ok r
  get : s.get r.id = .ok Module.tallyImage
  load : Module.load "t" Module.tallyImage = .ok mod
  takes : ∃ (m : Machine) (out : OutputBuffer),
    (Machine.create mod 20).Takes { limit := 0 } (.tally 1) m out

theorem ModuleStore.exists_hasTally : ∃ s r mod, HasTally s r mod := by
  have hcounts : ((Module.load "t" Module.tallyImage).toOption.bind fun mod =>
      (Machine.create mod 20).answers? 40 { limit := 0 } [.tally 1]).isSome = true := by
    decide +kernel
  cases hload : Module.load "t" Module.tallyImage with
  | error e =>
    rw [hload] at hcounts
    contradiction
  | ok mod =>
    rw [hload] at hcounts
    obtain ⟨m, hm⟩ := Option.isSome_iff_exists.mp hcounts
    obtain ⟨-, hparse, -⟩ := Module.load_eq_ok_iff.mp hload
    have hname : checkName "t" = .ok () := rfl
    obtain ⟨s, r, hput, hget, hrecord, -⟩ := exists_put (s := {}) rfl 0 hname hparse
    obtain ⟨-, header, -, hr, hs⟩ := put_eq_ok hput
    refine ⟨s, r, mod, ⟨?_, ?_, ?_, hrecord, hget, hload, ?_⟩⟩
    · show _ = (Write.perform (.put 0 "t" Module.tallyImage) {}).1
      rw [Write.perform_eq, Write.run, hput]
      rfl
    · rw [hs]
      rfl
    · rw [hr]
      rfl
    · cases Machine.answers_of_answers? hm with
      | cons htakes _ => exact ⟨_, _, htakes⟩

namespace Job

section

variable {modules : ModuleStore} {r : ModuleRecord} {mod : Module}

theorem exists_comes_tally (h : modules.HasTally r mod) :
    ∃ arena, tally.Comes modules {} r.id (.tally 1) arena := by
  obtain ⟨m, out, htakes⟩ := h.takes
  have hprepares : tally.Prepares modules {} r.id "t" (.create mod 20) :=
    ⟨.inl h.names, _, mod, h.get, h.load, .inl ⟨rfl, rfl⟩⟩
  have hbuffer : ({ limit := 0 } : OutputBuffer).limit ≤ 0 := Int.le_refl 0
  obtain ⟨-, -, arena, -, -, -, harena, -⟩ :=
    hprepares.exists_call hbuffer htakes "t" (Nat.le_refl _) hbuffer
  exact ⟨arena, rfl, .inr (by decide), "t", _, _, m, out, hprepares, hbuffer, htakes, harena⟩

theorem avoids_tally (h : modules.HasTally r mod) {id : ModuleId} {m : Machine}
    (hm : tally.Prepares modules {} id "t" m) :
    Point.Avoids (standardRegistry { fuel := 100 }).host StandardTrap.clockNumber
      (.start m { limit := 0 } tally.invocation) := by
  obtain ⟨m', out, htakes⟩ := h.takes
  obtain ⟨href, image, mod', himage, hload, hrestores⟩ := hm
  obtain rfl := href.eq_of_get? h.names
  obtain rfl := Except.ok.inj (himage.symm.trans h.get)
  obtain rfl := Except.ok.inj (hload.symm.trans h.load)
  rcases hrestores with ⟨-, rfl⟩ | ⟨hne, -⟩
  · exact htakes.clock
  · exact absurd rfl hne

/-- The command line and a server both count to one. -/
theorem command_line_eq_server_tally :
    ∃ modules o s r, modules = ModuleStore.after {} ([.put 0 "t" Module.tallyImage].map .write) ∧
      Cli.run .tally Job.tally.cliArgs (.tally modules {}) = some o ∧ o.failure = none ∧
      o.output = (⟨"tick".toUTF8⟩ : Text) ++ (">> 1\n" : String) ∧
      Rpc.callModule .tally { fuel := 100 } false { modules, snapshots := some {} } Job.tally.params
        = some (s, .ok r) := by
  obtain ⟨modules, r, mod, h⟩ := ModuleStore.exists_hasTally
  have hbuilt : modules.Built := h.writes ▸ ModuleStore.built_after_writes _
  have hread := FileSystem.read_tally modules {}
  have href : tally.ref.toList.head? ≠ some '-' := by decide
  have hclock : Cli.LeavesClock .tally tally.cliArgs (.tally modules {}) := by
    rw [leavesClock_run_iff (j := tally) hbuilt rfl (Cli.finds_tally modules {}) hread rfl href]
    exact fun id m hm => avoids_tally h hm
  have hclock' : Rpc.LeavesClock .tally { fuel := 100 } false { modules, snapshots := some {} }
      tally.params := by
    rw [leavesClock_callModule_iff hbuilt rfl]
    intro r' m _ hr' hm
    rw [hm.1.eq_of_get? h.names] at hr'
    obtain rfl := Except.ok.inj (hr'.symm.trans h.record)
    rw [h.record_name] at hm
    exact avoids_tally h hm
  obtain ⟨-, hsucceeds, hends⟩ := command_line_eq_server (j := tally) h.writes rfl
    (Cli.finds_tally modules {}) hread rfl href (Int.le_refl 0) rfl rfl hclock hclock'
  obtain ⟨arena, hcomes⟩ := exists_comes_tally h
  have hcall : Rpc.callModule .tally { fuel := 100 } false { modules, snapshots := some {} }
      tally.params = _ := hcomes.callModule_eq hbuilt rfl (Int.le_refl 0) rfl (by decide)
  obtain ⟨o, hrun, ho⟩ := hsucceeds.mpr ⟨_, _, hcall⟩
  obtain ⟨summary, _, hsummary, hend⟩ := hends o _ _ hrun ho hcall
  obtain rfl := Rpc.Result.called.inj hsummary
  have hone : ">> " ++ toString (Turn.tally 1).value.toInt32.toInt ++ "\n" = ">> 1\n" := by decide
  have houtput : o.output = (⟨"tick".toUTF8⟩ : Text)
      ++ (">> " ++ toString (Turn.tally 1).value.toInt32.toInt ++ "\n" : String) := hend.output
  rw [hone] at houtput
  exact ⟨modules, o, _, _, h.writes, hrun, ho, houtput, hcall⟩

end

end Job

end BytecodeHost
