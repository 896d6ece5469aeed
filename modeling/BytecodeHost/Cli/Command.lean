import BytecodeHost.Cli.Columns
import BytecodeHost.Cli.Options
import BytecodeHost.Config
import BytecodeHost.Execution
import BytecodeHost.Rpc.Http
import BytecodeHost.Snapshot.File
import BytecodeHost.Timestamp

/-!
# Commands

The commands of a host. A command works on the file system, in which the stores live, and prints
text. A failed command keeps what it did to the file system before it failed.

A module is given as the path of a file, as a stored name or as the text of an identifier, tried in
this order.

## Main definitions

* `Cli.resolve`: the module that a reference means.
* `Cli.run`: runs a module.
* `Cli.dispatch`: every command by its name.
* `Cli.execute`: a command with the configuration of a directory.
-/

namespace BytecodeHost

namespace Cli

variable [Zstd.Compressor]

/-- The version that a server reports. -/
def version : String := "0.1.0"

/-- What stays the same during a command. -/
structure Setting where
  /-- The working directory. -/
  here : String
  /-- The configuration. -/
  config : Config
  /-- What calls take from outside. -/
  env : Environment

/-- A step of a command, which works on the file system and may fail. -/
abbrev Step (α : Type) : Type := ExceptT Failure (StateM FileSystem) α

/-- How a command ended. -/
structure Outcome where
  /-- The file system afterwards. -/
  files : FileSystem
  /-- What was printed. -/
  output : Text := ""
  /-- What went wrong. -/
  failure : Option Failure := none

/-- The outcome of a step that ends with what is to be printed. -/
def Step.outcome (s : Step Text) (files : FileSystem) : Outcome :=
  match s.run files with
  | (.ok output, files) => { files, output }
  | (.error f, files) => { files, failure := some f }

/-- Fails unless a result is there. -/
def Step.ofExcept {α : Type} (r : Except Failure α) : Step α :=
  ExceptT.mk (pure r)

/-- Fails with a message. -/
def Step.refuse {α : Type} (message : String) : Step α :=
  Step.ofExcept (.error (.plain message))

/-! ## Stores and files -/

/-- The module store. -/
def moduleStore (w : Setting) : Step ModuleStore := do
  match (← get).openModules w.config.storePath with
  | .error f => Step.ofExcept (.error (f.within "module store"))
  | .ok (files, store) =>
    set files
    return store

/-- Keeps the module store. -/
def keepModules (w : Setting) (store : ModuleStore) : Step Unit :=
  modify (·.keepModules w.config.storePath store)

/-- The snapshot store. -/
def snapshotStore (w : Setting) : Step SnapshotStore := do
  match (← get).openSnapshots w.config.snapshotsPath with
  | .error f => Step.ofExcept (.error (f.within "snapshot store"))
  | .ok (files, store) =>
    set files
    return store

/-- Keeps the snapshot store. -/
def keepSnapshots (w : Setting) (store : SnapshotStore) : Step Unit :=
  modify (·.keepSnapshots w.config.snapshotsPath store)

/-- The contents of a file. -/
def readFile (w : Setting) (path : String) : Step (Except FileError ByteArray) := do
  return (← get).read (FileSystem.locationOf w.here) path

/-- The contents of a file that must be there. -/
def requireFile (w : Setting) (path : String) : Step ByteArray := do
  Step.ofExcept ((← readFile w path).mapError FileError.toFailure)

/-- The identifier that a reference means in a store: a name, or else the text of an identifier. -/
def identify (store : ModuleStore) (ref : String) : Except Failure ModuleId :=
  match store.resolve ref with
  | .ok id => .ok id
  | .error (.nameNotFound _) =>
    match ModuleId.ofText ref with
    | .ok id => .ok id
    | .error _ => .error (.plain (ref ++ ": not a file, stored name or module id" : String))
  | .error e => .error e.toFailure

/-- The stored image that a reference means. -/
def fetch (store : ModuleStore) (ref : String) : Except Failure (ByteArray × ModuleId) := do
  let id ← identify store ref
  let image ← (store.get id).mapError fun e => e.toFailure.within ref
  return (image, id)

/-- The image and the identifier of the module that a reference means. -/
def resolve (w : Setting) (ref : String) : Step (ByteArray × ModuleId) := do
  match ← readFile w ref with
  | .ok image => return (image, .ofImage image)
  | .error e =>
    if e.problem = .notFound then Step.ofExcept (fetch (← moduleStore w) ref)
    else Step.ofExcept (.error e.toFailure)

/-! ## Running modules -/

/-- The options of `run`. -/
structure RunOptions where
  /-- The label to save the arena under; none if empty. -/
  save : String := ""
  /-- The label to restore the arena from; none if empty. -/
  restore : String := ""
  /-- The instruction limit. -/
  maxInstructions : UInt64
  /-- How long the call may run, in nanoseconds. -/
  timeout : Int := 0

/-- The names of the options. -/
def RunOptions.actions : List (String × Options.Action RunOptions) :=
  [("save", .value fun o save => .ok { o with save }),
   ("restore", .value fun o restore => .ok { o with restore }),
   ("max-instructions", .value fun o s =>
     (Options.readWord s).map fun maxInstructions => { o with maxInstructions }),
   ("timeout", .value fun o s => (Options.readDuration s).map fun timeout => { o with timeout })]

/-- The words of a call from argument `i` on. -/
def readWords (i : Nat) : List String → Except Failure (List UInt32)
  | [] => .ok []
  | s :: rest =>
    match Literal.readInt 32 s.toList with
    | .error p =>
      .error (.plain (s!"run: argument {i}: strconv.ParseInt: parsing " ++ Text.quoted s ++ ": "
        ++ p.message : String))
    | .ok n => (readWords (i + 1) rest).map ((Int32.ofInt n).toUInt32 :: ·)

/-- A call from the command line. -/
structure RunRequest where
  options : RunOptions
  /-- The module. -/
  ref : String
  /-- The command and its arguments. -/
  words : List UInt32

/-- The call that arguments ask for. -/
def RunRequest.ofArgs (w : Setting) (args : List String) : Except Failure RunRequest :=
  match Options.parse RunOptions.actions { maxInstructions := w.config.maxInstructions } args with
  | .error e => .error (.plain e.message)
  | .ok (_, []) => .error (.plain "run: missing module")
  | .ok (options, ref :: numbers) =>
    (readWords 0 numbers).map fun words => { options, ref, words }

/-- The call as the machine takes it. -/
def RunRequest.invocation (w : Setting) (r : RunRequest) : Invocation :=
  { command := r.words.headD 0
    args := r.words.tail
    interruption := w.env.interruption false r.options.timeout }

/-- A machine with its arena restored, if a label is given. -/
def restored (w : Setting) (id : ModuleId) (label : String) (m : Machine) : Step Machine := do
  if label = "" then return m
  else
    let store ← snapshotStore w
    let (arena, _) ← Step.ofExcept ((store.load id label).mapError (·.toFailure))
    match m.restore arena with
    | (m, .ok ()) => return m
    | (_, .error f) => Step.ofExcept (.error f)

/-- The machine for a call, and the identifier of its module. -/
def prepare (w : Setting) (r : RunRequest) : Step (Machine × ModuleId) := do
  let (image, id) ← resolve w r.ref
  let fresh ← Step.ofExcept
    ((Machine.load? true r.ref image r.options.maxInstructions).mapError (·.failure))
  return (← restored w id r.options.restore fresh, id)

/-- Saves the arena of a machine under a label, if one is given. -/
def saveArena (w : Setting) (id : ModuleId) (label : String) (m : Machine) : Step Unit := do
  if label = "" then return ()
  else
    let store ← snapshotStore w
    let arena ← Step.ofExcept m.snapshot.2
    let (store, _) ← Step.ofExcept ((store.save w.env.now id label arena).mapError (·.toFailure))
    keepSnapshots w store

/-- The line that shows the result of a call. -/
def resultLine (value : UInt32) : String :=
  s!">> {value.toInt32.toInt}\n"

/-- Runs a module. There is no outcome if the fuel does not suffice. -/
def run (w : Setting) (args : List String) (files : FileSystem) : Option Outcome :=
  match RunRequest.ofArgs w args with
  | .error f => some { files, failure := some f }
  | .ok r =>
    match (prepare w r).run files with
    | (.error f, files) => some { files, failure := some f }
    | (.ok (m, id), files) =>
      match m.callStandard w.env { limit := 0 } (r.invocation w) with
      | none => none
      | some (m, out, ⟨value, none⟩) =>
        let output : Text := ⟨out.bytes⟩ ++ resultLine value
        match (saveArena w id r.options.save m).run files with
        | (.ok (), files) => some { files, output }
        | (.error f, files) => some { files, output, failure := some f }
      | some (_, out, ⟨_, some f⟩) => some { files, output := ⟨out.bytes⟩, failure := some f }

/-! ## Stored modules -/

/-- Stores a file under a name, which is its path if none is given. -/
def add (w : Setting) (args : List String) : Step Text :=
  match args with
  | [path] => store path path
  | [path, name] => store path name
  | _ => Step.refuse "usage: add <file> [name]"
where
  /-- Stores a file under a name. -/
  store (path name : String) : Step Text := do
    let image ← requireFile w path
    let modules ← moduleStore w
    let (modules, record) ← Step.ofExcept
      ((modules.put w.env.now name image).mapError (·.toFailure))
    keepModules w modules
    return (record.id.toText ++ " " ++ record.name ++ "\n" : String)

/-- A line of a table. -/
def row (cells : List String) : String :=
  "\t".intercalate cells ++ "\n"

/-- A table. -/
def table (rows : List (List String)) : Text :=
  Columns.layout (String.join (rows.map row))

/-- Lists the stored modules. -/
def list (w : Setting) : Step Text := do
  let modules ← moduleStore w
  let records ← Step.ofExcept (modules.list.mapError (·.toFailure))
  return table (["ID", "NAME", "INSTRUCTIONS", "SIZE", "ARENA", "ADDED"] ::
    records.map fun r =>
      [r.id.short, r.name, toString r.instructionCount.toInt, toString r.size,
       toString r.arenaSize.toNat, Timestamp.render r.addedAt])

/-- Shows the header of a module. -/
def inspect (w : Setting) (args : List String) : Step Text :=
  match args with
  | [ref] => do
    let (image, id) ← resolve w ref
    let h ← Step.ofExcept ((Header.parse image).mapError (·.toFailure))
    return table
      [["name", ref], ["id", id.toText], ["instructions", toString h.instructionCount.toInt],
       ["code", s!"{h.codeOffset.toInt}+{h.codeLength.toInt}"],
       ["data", s!"{h.dataOffset.toInt}+{h.dataLength.toInt}"],
       ["lit", toString h.litLength.toInt], ["bss", toString h.bssLength.toInt],
       ["arena", toString h.arenaSize.toNat]]
  | _ => Step.refuse "usage: inspect <module>"

/-- Removes a stored module. -/
def remove (w : Setting) (args : List String) : Step Text :=
  match args with
  | [ref] => do
    let (_, id) ← resolve w ref
    let modules ← moduleStore w
    let modules ← Step.ofExcept ((modules.delete id).mapError (·.toFailure))
    keepModules w modules
    return ""
  | _ => Step.refuse "usage: rm <module>"

/-! ## Snapshots -/

/-- Lists the snapshots of a module. -/
def listSnapshots (w : Setting) (store : SnapshotStore) (args : List String) : Step Text :=
  match args with
  | [ref] => do
    let (_, id) ← resolve w ref
    let infos ← Step.ofExcept ((store.list id).mapError (·.toFailure))
    return table (["LABEL", "SIZE", "STORED", "CREATED"] ::
      infos.map fun i =>
        [i.label, toString i.size, toString i.stored, Timestamp.render i.createdAt])
  | _ => Step.refuse "usage: snapshot list <module>"

/-- Writes a snapshot to a file. -/
def exportSnapshot (w : Setting) (store : SnapshotStore) (args : List String) : Step Text :=
  match args with
  | [ref, label, path] => do
    let (_, id) ← resolve w ref
    let (arena, info) ← Step.ofExcept ((store.load id label).mapError (·.toFailure))
    let written := (← get).write (FileSystem.locationOf w.here) path (Snapshot.toFile info arena)
    set (← Step.ofExcept (written.mapError FileError.toFailure))
    return ""
  | _ => Step.refuse "usage: snapshot export <module> <label> <file>"

/-- The failure to read a snapshot from a file: what is no file is no snapshot file either. -/
def importFailure (e : FileError) : Failure :=
  if e.problem = .isDirectory then
    .ofCause .invalidFile (Snapshot.invalidFileText ++ ": " ++ e.message : String)
  else e.toFailure

/-- Saves the snapshot in a file under the module and the label that it names. -/
def importSnapshot (w : Setting) (store : SnapshotStore) (args : List String) : Step Text :=
  match args with
  | [path] => do
    let file ← Step.ofExcept ((← readFile w path).mapError importFailure)
    let (info, arena) ← Step.ofExcept ((Snapshot.ofFile file).mapError (·.toFailure))
    let (store, _) ← Step.ofExcept
      ((store.save w.env.now info.moduleId info.label arena).mapError (·.toFailure))
    keepSnapshots w store
    return ""
  | _ => Step.refuse "usage: snapshot import <file>"

/-- The commands on snapshots. -/
def snapshot (w : Setting) (args : List String) : Step Text :=
  match args with
  | [] => Step.refuse "usage: snapshot list|export|import ..."
  | command :: rest => do
    let store ← snapshotStore w
    match command with
    | "list" => listSnapshots w store rest
    | "export" => exportSnapshot w store rest
    | "import" => importSnapshot w store rest
    | _ => Step.refuse ("unknown snapshot command " ++ Text.quoted command)

/-! ## The server -/

/-- The options of `serve`. -/
structure ServeOptions where
  /-- Where to listen. -/
  addr : String
  /-- Whether to do without snapshots. -/
  noSnapshots : Bool := false

/-- The names of the options. -/
def ServeOptions.actions : List (String × Options.Action ServeOptions) :=
  [("addr", .value fun o addr => .ok { o with addr }),
   ("no-snapshots", .switch fun o noSnapshots => { o with noSnapshots })]

/-- Starts a server over the stores. -/
def serve (w : Setting) (args : List String) : Step Text :=
  match Options.parse ServeOptions.actions { addr := w.config.server.addr } args with
  | .error e => Step.refuse e.message
  | .ok (o, _) => do
    let modules ← moduleStore w
    let snapshots ← if o.noSnapshots then pure none else some <$> snapshotStore w
    let server : Rpc.Server :=
      { config := { w.config.toServer version with addr := o.addr }
        storage := { modules, snapshots } }
    Step.ofExcept server.start.2
    return ""

/-! ## All commands -/

/-- Carries out a command. There is no outcome if a call runs out of fuel. -/
def dispatch (w : Setting) (files : FileSystem) (command : String) (args : List String) :
    Option Outcome :=
  match command with
  | "run" => run w args files
  | "add" => some ((add w args).outcome files)
  | "list" => some ((list w).outcome files)
  | "inspect" => some ((inspect w args).outcome files)
  | "rm" => some ((remove w args).outcome files)
  | "snapshot" => some ((snapshot w args).outcome files)
  | "serve" => some ((serve w args).outcome files)
  | _ =>
    some { files, failure := some (.plain ("unknown command " ++ Text.quoted command : String)) }

/-- Carries out a command with the configuration that holds in a directory. -/
def execute (env : Environment) (here : String) (files : FileSystem) (command : String)
    (args : List String) : Option Outcome :=
  match Config.findAndLoad files here here with
  | .error e => some { files, failure := some e.toFailure }
  | .ok config => dispatch { here, config, env } files command args

end Cli

end BytecodeHost
