import BytecodeHost.Execution
import BytecodeHost.Rpc.Message
import BytecodeHost.Storage

/-!
# Remote calls: methods

Each method takes the storage and its parameters and answers with an error or a result. Methods that
write answer with the storage afterwards as well, whatever else they answer with: what was written
stays written when a later step fails.

Modules are referred to by a stored name or, if there is none, by the text of their identifier.

## Main definitions

* `Rpc.CallConfig.ofJson?`: the options of a call.
* `Rpc.callModule`: runs a module in a fresh machine.
* `Rpc.dispatch`: every method by its name.
-/

namespace BytecodeHost

namespace Rpc

variable [Zstd.Compressor]

/-- The settings of a server. -/
structure Config where
  /-- Where the server listens. -/
  addr : String := "127.0.0.1:8787"
  /-- How long a request may take to arrive, in nanoseconds. -/
  readTimeout : Int := 30000000000
  /-- How long a response may take to leave, in nanoseconds. -/
  writeTimeout : Int := 60000000000
  /-- How many bytes of a request are read. -/
  maxRequestSize : Int := 8388608
  /-- Whether browsers on other sites may use the server. -/
  enableCors : Bool := false
  /-- The sites that may; none stands for all. -/
  allowedOrigins : Option (List String) := none
  /-- Whether requests are logged. -/
  logRequests : Bool := false
  /-- How much is logged of a machine's work. -/
  debugLevel : Int := 0
  /-- The instruction limit of calls that set none. -/
  maxInstructions : UInt64 := 0
  /-- How long a call may run, in nanoseconds; zero for any time. -/
  callTimeout : Int := 30000000000
  /-- How many printed bytes are kept of a call. -/
  maxOutput : Int := 65536
  /-- The version that the server reports. -/
  version : String := ""

/-! ## Parameters -/

/-- The positional parameters, of which there must be `want`. -/
def positional (params : JsonValue) (want : Nat) (what : String) :
    Except Error (List JsonValue) :=
  match params.toItems? with
  | none => .error (.invalidParams "invalid params")
  | some args =>
    if args.length < want then
      .error (.invalidParams ("missing " ++ what ++ " parameter" : String))
    else .ok args

/-- Parameter `i`, null if it is missing. -/
def argument (args : List JsonValue) (i : Nat) : JsonValue :=
  args.getD i .null

/-- A text parameter. -/
def textArgument (args : List JsonValue) (i : Nat) (default what : String) : Except Error String :=
  match (argument args i).readText? default with
  | some s => .ok s
  | none => .error (.invalidParams ("invalid " ++ what : String))

/-- A text parameter that must not be empty. -/
def wordArgument (args : List JsonValue) (i : Nat) (what : String) : Except Error String :=
  match textArgument args i "" what with
  | .ok "" => .error (.invalidParams ("invalid " ++ what : String))
  | r => r

/-- The options of a request for a module. -/
structure ModuleConfig where
  /-- How the image is to be written. -/
  encoding : String := ""

/-- Reads the options of a request for a module. -/
def ModuleConfig.ofJson? (v : JsonValue) : Option ModuleConfig :=
  match v.toMembers? with
  | none => none
  | some members =>
    members.foldlM (fun c (name, v) =>
      if Text.isField "encoding" name then
        (v.readText? c.encoding).map fun encoding => { c with encoding }
      else some c) {}

/-- The options of a call. -/
structure CallConfig where
  /-- The command word. -/
  command : Int := 0
  /-- The arguments that were read last, and after them those of earlier longer lists. -/
  buffer : List Int := []
  /-- How many arguments there are. -/
  argCount : Nat := 0
  /-- The instruction limit, if the caller sets one. -/
  maxInstructions : Option UInt64 := none
  /-- How long the call may run, in milliseconds. -/
  timeoutMs : Int := 0
  /-- The snapshot that the call starts from. -/
  restore : String := ""
  /-- The label under which the arena is saved afterwards. -/
  save : String := ""

namespace CallConfig

/-- The least 32-bit integer. -/
def minWord : Int := -2147483648

/-- The greatest 32-bit integer. -/
def maxWord : Int := 2147483647

/-- The arguments. -/
def args (c : CallConfig) : List Int :=
  c.buffer.take c.argCount

/-- Reads words over earlier ones; null keeps what was there. -/
def readWords? : (earlier : List Int) → List JsonValue → Option (List Int)
  | earlier, [] => some earlier
  | earlier, v :: rest => do
    let word ← v.readInt? minWord maxWord (earlier.headD 0)
    let rest ← readWords? earlier.tail rest
    return word :: rest

/-- The options with the arguments read; an empty list forgets the earlier ones. -/
def readArgs? (c : CallConfig) (v : JsonValue) : Option CallConfig :=
  match v.toItems? with
  | none => none
  | some [] => some { c with buffer := [], argCount := 0 }
  | some items =>
    (readWords? c.buffer items).map fun buffer => { c with buffer, argCount := items.length }

/-- The options with one more member read. -/
def readMember? (c : CallConfig) (m : String × JsonValue) : Option CallConfig :=
  let (name, v) := m
  if Text.isField "command" name then
    (v.readInt? minWord maxWord c.command).map fun command => { c with command }
  else if Text.isField "args" name then c.readArgs? v
  else if Text.isField "maxInstructions" name then
    (v.readNat? (1 <<< 64 - 1)).map fun n => { c with maxInstructions := n.map (·.toUInt64) }
  else if Text.isField "timeoutMs" name then
    (v.readInt? Int64.minValue.toInt Int64.maxValue.toInt c.timeoutMs).map fun timeoutMs =>
      { c with timeoutMs }
  else if Text.isField "restore" name then
    (v.readText? c.restore).map fun restore => { c with restore }
  else if Text.isField "save" name then
    (v.readText? c.save).map fun save => { c with save }
  else some c

/-- Reads the options of a call. -/
def ofJson? (v : JsonValue) : Option CallConfig :=
  match v.toMembers? with
  | some members => members.foldlM readMember? {}
  | none => none

/-- How long the call may run, in nanoseconds: the caller's limit counts if it is the shorter. -/
def timeout (c : CallConfig) (serverLimit : Int) : Int :=
  let own := (Int64.ofInt c.timeoutMs * 1000000).toInt
  if 0 < own ∧ (serverLimit = 0 ∨ own < serverLimit) then own else serverLimit

end CallConfig

/-- Options in the second parameter. -/
def configArgument {γ : Type} (args : List JsonValue) (read : JsonValue → Option γ) :
    Except Error γ :=
  match read (argument args 1) with
  | some c => .ok c
  | none => .error (.invalidParams "invalid config")

/-! ## Modules -/

/-- The identifier that a reference stands for: that of a stored name, or the one it spells. -/
def resolveId (s : Storage) (ref : String) : Except Error ModuleId :=
  match s.resolveName ref with
  | .ok id => .ok id
  | .error f =>
    if f.hasCause .nameNotFound then
      match ModuleId.ofText ref with
      | .ok id => .ok id
      | .error _ => .error (.moduleNotFound ref)
    else .error (.internal "resolve module" f)

/-- The record of the module that the first parameter refers to. -/
def resolveModule (s : Storage) (args : List JsonValue) : Except Error ModuleRecord := do
  let ref ← wordArgument args 0 "module"
  let id ← resolveId s ref
  match s.moduleRecord id with
  | .ok r => return r
  | .error f =>
    if f.hasCause .moduleNotFound then throw (.moduleNotFound ref)
    else throw (.internal "read module record" f)

/-- Lists the stored modules. -/
def getModules (s : Storage) : Except Error Result := do
  let records ← s.listModules.mapError (.internal "list modules")
  return .modules records

/-- Answers with a module's record and image. -/
def getModule (s : Storage) (params : JsonValue) : Except Error Result := do
  let args ← positional params 1 "module"
  let config ← configArgument args ModuleConfig.ofJson?
  let record ← resolveModule s args
  let image ← (s.getModule record.id).mapError (.internal "read module")
  let encoding ← (ImageEncoding.named config.encoding).mapError fun f => .invalidParams f.message
  return .module record (some (encoding.encode image, encoding))

/-- The failure of data that are no image, in the words of a response. -/
def invalidData (f : Failure) : Error :=
  .invalidParams (f.within "invalid data").message

/-- The name and the image in the parameters of a request to store a module. -/
def additionOf (params : JsonValue) : Except Error (String × ByteArray) := do
  let args ← positional params 2 "name and data"
  let name ← wordArgument args 0 "name"
  let data ← textArgument args 1 "" "data"
  let encodingName ← textArgument args 2 "base64" "encoding"
  let encoding ← (ImageEncoding.named encodingName).mapError invalidData
  let image ← (encoding.decode data).mapError fun e => invalidData e.toFailure
  return (name, image)

/-- Stores an image. -/
def addModule (s : Storage) (now : Int) (params : JsonValue) : Storage × Except Error Result :=
  match additionOf params with
  | .error e => (s, .error e)
  | .ok (name, image) =>
    match s.putModule now name image with
    | .ok (s, record) => (s, .ok (.module record none))
    | .error f =>
      if Failure.kindOf (some f) = .invalidModule then (s, .error (.invalidModule f.message))
      else (s, .error (.internal "store module" f))

/-- The module in the parameters of a request about a module. -/
def moduleOf (s : Storage) (params : JsonValue) : Except Error ModuleRecord := do
  let args ← positional params 1 "module"
  resolveModule s args

/-- Removes a module. -/
def deleteModule (s : Storage) (params : JsonValue) : Storage × Except Error Result :=
  match moduleOf s params with
  | .error e => (s, .error e)
  | .ok record =>
    match s.deleteModule record.id with
    | .ok s => (s, .ok .removed)
    | .error f => (s, .error (.internal "delete module" f))

/-! ## Calls -/

/-- A machine that is ready for the call that was asked for. -/
structure PreparedCall where
  /-- The module. -/
  record : ModuleRecord
  /-- The options of the call. -/
  config : CallConfig
  /-- The machine, with the snapshot restored. -/
  machine : Machine

/-- The arena that a call starts from, put into its machine. -/
def restoreSnapshot (s : Storage) (id : ModuleId) (label : String) (m : Machine) :
    Except Error Machine :=
  if label = "" then .ok m
  else
    match s.loadSnapshot id label with
    | .error f =>
      if f.hasCause .snapshotNotFound then .error (.snapshotNotFound label)
      else .error (.internal "load snapshot" f)
    | .ok (arena, _) =>
      match m.restore arena with
      | (m, .ok ()) => .ok m
      | (_, .error f) =>
        .error (.invalidParams
          (f.within ("snapshot " ++ label ++ " does not fit module")).message)

/-- Everything that comes before a call. -/
def prepareCall (server : Config) (s : Storage) (params : JsonValue) :
    Except Error PreparedCall := do
  let args ← positional params 1 "module"
  let config ← configArgument args CallConfig.ofJson?
  if maxCallArgs < config.args.length then
    throw (.invalidParams s!"at most {maxCallArgs} arguments")
  if (config.restore ≠ "" ∨ config.save ≠ "") ∧ s.snapshots.isNone then throw .snapshotsDisabled
  let record ← resolveModule s args
  let image ← (s.getModule record.id).mapError (.internal "read module")
  let limit := config.maxInstructions.getD server.maxInstructions
  let fresh ← (Machine.load? true record.name image limit).mapError fun e =>
    .invalidModule e.failure.message
  let machine ← restoreSnapshot s record.id config.restore fresh
  return { record, config, machine }

/-- Saves the arena of a finished call, if that was asked for. -/
def saveArena (s : Storage) (now : Int) (id : ModuleId) (label : String) (m : Machine) :
    Storage × Except Error Unit :=
  if label = "" then (s, .ok ())
  else
    match m.snapshot with
    | (_, .error f) => (s, .error (.internal "snapshot arena" f))
    | (_, .ok arena) =>
      match s.saveSnapshot now id label arena with
      | .ok (s, _) => (s, .ok ())
      | .error f =>
        if f.hasCause .invalidLabel then
          (s, .error (.invalidParams ("invalid snapshot label " ++ Text.quoted label : String)))
        else (s, .error (.internal "save snapshot" f))

/-- Everything that comes after a call. -/
def finishCall (s : Storage) (now : Int) (p : PreparedCall) (m : Machine) (out : OutputBuffer)
    (r : CallResult) : Storage × Except Error Result :=
  match r.failure with
  | some f => (s, .error (.executionFailed f m.status.meter.used ⟨out.bytes⟩))
  | none =>
    match saveArena s now p.record.id p.config.save m with
    | (s, .error e) => (s, .error e)
    | (s, .ok ()) =>
      (s, .ok (.called
        { moduleId := p.record.id
          value := r.value
          instructions := m.status.meter.used
          output := ⟨out.bytes⟩
          truncated := out.truncated
          snapshot := p.config.save }))

/-- A word argument as the machine takes it. -/
def wordOfInt (i : Int) : UInt32 :=
  (Int32.ofInt i).toUInt32

/-- The call that was asked for. -/
def PreparedCall.invocation (p : PreparedCall) (interruption : Option Interruption) : Invocation :=
  { command := wordOfInt p.config.command
    args := p.config.args.map wordOfInt
    interruption }

/-- Runs a module in a fresh machine. There is no answer if the call runs out of fuel. -/
def callModule (server : Config) (env : Environment) (canceled : Bool) (s : Storage)
    (params : JsonValue) : Option (Storage × Except Error Result) :=
  match prepareCall server s params with
  | .error e => some (s, .error e)
  | .ok p =>
    let interruption := env.interruption canceled (p.config.timeout server.callTimeout)
    match p.machine.callStandard env { limit := server.maxOutput } (p.invocation interruption) with
    | none => none
    | some (m, out, r) => some (finishCall s env.now p m out r)

/-! ## Snapshots -/

/-- Refuses methods that need snapshots. -/
def requireSnapshots (s : Storage) : Except Error Unit :=
  if s.snapshots.isNone then .error .snapshotsDisabled else .ok ()

/-- Lists the snapshots of a module. -/
def getSnapshots (s : Storage) (params : JsonValue) : Except Error Result := do
  requireSnapshots s
  let record ← moduleOf s params
  let infos ← (s.listSnapshots record.id).mapError (.internal "list snapshots")
  return .snapshots infos

/-- The module and the label in the parameters of a request to remove a snapshot. -/
def snapshotOf (s : Storage) (params : JsonValue) : Except Error (ModuleRecord × String) := do
  requireSnapshots s
  let args ← positional params 2 "module and label"
  let label ← textArgument args 1 "" "label"
  let record ← resolveModule s args
  return (record, label)

/-- Removes a snapshot of a module. -/
def deleteSnapshot (s : Storage) (params : JsonValue) : Storage × Except Error Result :=
  match snapshotOf s params with
  | .error e => (s, .error e)
  | .ok (record, label) =>
    match s.deleteSnapshot record.id label with
    | .ok s => (s, .ok .removed)
    | .error f =>
      if f.hasCause .snapshotNotFound then (s, .error (.snapshotNotFound label))
      else (s, .error (.internal "delete snapshot" f))

/-! ## All methods -/

/-- Carries out a method. There is no answer if a call runs out of fuel. -/
def dispatch (server : Config) (env : Environment) (canceled : Bool) (s : Storage)
    (method : String) (params : JsonValue) : Option (Storage × Except Error Result) :=
  match method with
  | "getModules" => some (s, getModules s)
  | "getModule" => some (s, getModule s params)
  | "addModule" => some (addModule s env.now params)
  | "deleteModule" => some (deleteModule s params)
  | "callModule" => callModule server env canceled s params
  | "getSnapshots" => some (s, getSnapshots s params)
  | "deleteSnapshot" => some (deleteSnapshot s params)
  | "getHealth" => some (s, .ok .health)
  | "getVersion" => some (s, .ok (.version server.version (standardRegistry env).numbers))
  | _ => some (s, .error (.methodNotFound method))

end Rpc

end BytecodeHost
