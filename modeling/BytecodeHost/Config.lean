import BytecodeHost.Duration
import BytecodeHost.FileSystem
import BytecodeHost.Rpc.Method
import BytecodeHost.Toml.Document

/-!
# Configuration files

The settings of a host are read from `qvm.toml`. Keys that are not known are ignored, known ones
match up to letter case and must have values of their type. What is missing or zero gets its
default, and afterwards all ranges are checked at once.

Relative paths in a file are meant from the directory that the file is in.

## Main definitions

* `Config`: the settings.
* `Config.load`: reads a file.
* `Config.findAndLoad`: reads the nearest file in a directory or above it.
* `Config.toServer`: the settings of the server.
-/

namespace BytecodeHost

namespace Config

/-- Where modules are stored. -/
structure Store where
  path : String := ""
  /-- Whether writes are left to the system. -/
  noSync : Bool := false
  deriving DecidableEq

/-- Where snapshots are stored. -/
structure Snapshots where
  path : String := ""
  /-- Whether writes are made durable at once; they are if nothing is said. -/
  syncWrites : Option Bool := none
  deriving DecidableEq

/-- What is logged, and where. -/
structure Log where
  verbosity : Int := 0
  /-- The file; none if empty. -/
  file : String := ""
  deriving DecidableEq

/-- How the server works. -/
structure Server where
  addr : String := ""
  maxRequestSize : Int := 0
  enableCors : Bool := false
  allowedOrigins : Option (List String) := none
  logRequests : Bool := false
  /-- In nanoseconds. -/
  callTimeout : Int := 0
  maxOutput : Int := 0
  deriving DecidableEq

end Config

/-- The settings of a host. -/
structure Config where
  /-- The directory that relative paths are meant from. -/
  directory : String := ""
  /-- How much is logged of a machine's work. -/
  debugLevel : Int := 0
  /-- The instruction limit; zero for none. -/
  maxInstructions : UInt64 := 0
  store : Config.Store := {}
  snapshots : Config.Snapshots := {}
  log : Config.Log := {}
  server : Config.Server := {}
  deriving DecidableEq

namespace Config

/-- The name of configuration files. -/
def fileName : String := "qvm.toml"

/-! ## Reading -/

/-- Reads known keys of a table over earlier settings. -/
def readEntries? {α : Type} (fields : List (String × (α → Toml.Value → Option α))) :
    α → Toml.Entries → Option α
  | a, [] => some a
  | a, (key, v) :: rest =>
    match fields.find? fun f => Text.isField f.1 key with
    | none => readEntries? fields a rest
    | some (_, read) =>
      match read a v with
      | none => none
      | some a => readEntries? fields a rest

/-- Reads a table. -/
def readTable? {α : Type} (fields : List (String × (α → Toml.Value → Option α))) (a : α) :
    Toml.Value → Option α
  | .table entries => readEntries? fields a entries
  | _ => none

/-- An integer. -/
def integer? : Toml.Value → Option Int
  | .integer n => some n
  | _ => none

/-- A truth value. -/
def boolean? : Toml.Value → Option Bool
  | .boolean b => some b
  | _ => none

/-- A text. -/
def text? : Toml.Value → Option String
  | .text s => some s
  | _ => none

/-- A duration: a text with units, or nanoseconds. -/
def duration? : Toml.Value → Option Int
  | .text s => Duration.parse? s
  | .integer n => some n
  | _ => none

/-- A list of texts. -/
def texts? : Toml.Value → Option (List String)
  | .array items => items.mapM text?
  | _ => none

/-- The keys of a module store. -/
def Store.fields : List (String × (Store → Toml.Value → Option Store)) :=
  [("path", fun s v => (text? v).map fun path => { s with path }),
   ("no_sync", fun s v => (boolean? v).map fun noSync => { s with noSync })]

/-- The keys of a snapshot store. -/
def Snapshots.fields : List (String × (Snapshots → Toml.Value → Option Snapshots)) :=
  [("path", fun s v => (text? v).map fun path => { s with path }),
   ("sync_writes", fun s v => (boolean? v).map fun b => { s with syncWrites := some b })]

/-- The keys of the log. -/
def Log.fields : List (String × (Log → Toml.Value → Option Log)) :=
  [("verbosity", fun s v => (integer? v).map fun verbosity => { s with verbosity }),
   ("file", fun s v => (text? v).map fun file => { s with file })]

/-- The keys of the server. -/
def Server.fields : List (String × (Server → Toml.Value → Option Server)) :=
  [("addr", fun s v => (text? v).map fun addr => { s with addr }),
   ("max_request_size", fun s v => (integer? v).map fun n => { s with maxRequestSize := n }),
   ("enable_cors", fun s v => (boolean? v).map fun enableCors => { s with enableCors }),
   ("allowed_origins", fun s v => (texts? v).map fun ts => { s with allowedOrigins := some ts }),
   ("log_requests", fun s v => (boolean? v).map fun logRequests => { s with logRequests }),
   ("call_timeout", fun s v => (duration? v).map fun callTimeout => { s with callTimeout }),
   ("max_output", fun s v => (integer? v).map fun maxOutput => { s with maxOutput })]

/-- All keys. A negative instruction limit wraps at 64 bits. -/
def fields : List (String × (Config → Toml.Value → Option Config)) :=
  [("debug_level", fun c v => (integer? v).map fun debugLevel => { c with debugLevel }),
   ("max_instructions", fun c v =>
     (integer? v).map fun n => { c with maxInstructions := (Int64.ofInt n).toUInt64 }),
   ("store", fun c v => (readTable? Store.fields c.store v).map fun store => { c with store }),
   ("snapshots", fun c v =>
     (readTable? Snapshots.fields c.snapshots v).map fun snapshots => { c with snapshots }),
   ("log", fun c v => (readTable? Log.fields c.log v).map fun log => { c with log }),
   ("rpc", fun c v => (readTable? Server.fields c.server v).map fun server => { c with server })]

/-- The settings in a file, as far as it has them. -/
def parse? (content : ByteArray) : Option Config :=
  (Toml.parse? content).bind (readEntries? fields {})

/-! ## Defaults -/

/-- A text unless it is empty. -/
def orText (default s : String) : String :=
  if s = "" then default else s

/-- A number unless it is zero. -/
def orInt (default n : Int) : Int :=
  if n = 0 then default else n

/-- Settings with everything that is missing filled in. -/
def withDefaults (c : Config) : Config :=
  let d : Rpc.Config := {}
  { c with
    store := { c.store with path := orText ".qvm/modules.db" c.store.path }
    snapshots :=
      { path := orText ".qvm/snapshots" c.snapshots.path
        syncWrites := some (c.snapshots.syncWrites.getD true) }
    server :=
      { c.server with
        addr := orText d.addr c.server.addr
        maxRequestSize := orInt d.maxRequestSize c.server.maxRequestSize
        callTimeout := orInt d.callTimeout c.server.callTimeout
        maxOutput := orInt d.maxOutput c.server.maxOutput } }

/-- The settings of a host without a file. -/
def default (directory : String) : Config :=
  withDefaults { directory }

/-! ## Ranges -/

/-- A setting outside its range. -/
inductive Problem where
  | debugLevel (n : Int)
  | verbosity (n : Int)
  | maxRequestSize (n : Int)
  | callTimeout (n : Int)
  deriving DecidableEq

/-- The wording of a problem. -/
def Problem.message : Problem → String
  | debugLevel n => s!"debug_level {n} not in 0..2"
  | verbosity n => s!"log.verbosity {n} not in -4..2"
  | maxRequestSize n => s!"rpc.max_request_size {n} is negative"
  | callTimeout n => "rpc.call_timeout " ++ Duration.render n ++ " is negative"

/-- All settings outside their ranges. -/
def problems (c : Config) : List Problem :=
  (if 0 ≤ c.debugLevel ∧ c.debugLevel ≤ 2 then [] else [.debugLevel c.debugLevel])
  ++ (if -4 ≤ c.log.verbosity ∧ c.log.verbosity ≤ 2 then [] else [.verbosity c.log.verbosity])
  ++ (if 0 ≤ c.server.maxRequestSize then [] else [.maxRequestSize c.server.maxRequestSize])
  ++ (if 0 ≤ c.server.callTimeout then [] else [.callTimeout c.server.callTimeout])

/-! ## Files -/

/-- Why a file gives no settings. -/
inductive Error where
  /-- It cannot be read. -/
  | unreadable (path : String) (e : FileError)
  /-- It is not written as it should be, or a value has the wrong type. -/
  | malformed (path : String)
  /-- Settings are outside their ranges. -/
  | invalid (path : String) (problems : List Problem)
  deriving DecidableEq

/-- The wording of an error. -/
def Error.message : Error → String
  | unreadable path e => "cannot read " ++ path ++ ": " ++ e.message
  | malformed path => "parse error in " ++ path
  | invalid path problems => path ++ ": " ++ "\n".intercalate (problems.map Problem.message)

/-- The failure that an error is. -/
def Error.toFailure (e : Error) : Failure :=
  .plain e.message

/-- The settings in a file, seen from a directory. -/
def load (fs : FileSystem) (here path : String) : Except Error Config :=
  match fs.read (FileSystem.locationOf here) path with
  | .error e => .error (.unreadable path e)
  | .ok content =>
    match parse? content with
    | none => .error (.malformed path)
    | some c =>
      let c := withDefaults { c with directory := Path.absolute here (Path.parent path) }
      match c.problems with
      | [] => .ok c
      | problems => .error (.invalid path problems)

/-- The settings in the nearest file in a directory or above it; the defaults if there is none. -/
def findAndLoad (fs : FileSystem) (here directory : String) : Except Error Config :=
  let directory := Path.absolute here directory
  let candidates := (Path.ancestors directory).map fun d => Path.join [d, fileName]
  match candidates.find? (fs.holds (FileSystem.locationOf here)) with
  | some path => load fs here path
  | none => .ok (.default directory)

/-! ## Use -/

/-- The path that a setting means. -/
def resolve (c : Config) (path : String) : String :=
  if Path.isAbsolute path ∨ c.directory = "" then path else Path.join [c.directory, path]

/-- Where modules are stored. -/
def storePath (c : Config) : String :=
  c.resolve c.store.path

/-- Where snapshots are stored. -/
def snapshotsPath (c : Config) : String :=
  c.resolve c.snapshots.path

/-- Where the log is written; nowhere if empty. -/
def logFile (c : Config) : String :=
  if c.log.file = "" then "" else c.resolve c.log.file

/-- The settings of the server. -/
def toServer (c : Config) (version : String) : Rpc.Config :=
  { addr := c.server.addr
    maxRequestSize := c.server.maxRequestSize
    enableCors := c.server.enableCors
    allowedOrigins := c.server.allowedOrigins
    logRequests := c.server.logRequests
    debugLevel := c.debugLevel
    maxInstructions := c.maxInstructions
    callTimeout := c.server.callTimeout
    maxOutput := c.server.maxOutput
    version }

end Config

end BytecodeHost
