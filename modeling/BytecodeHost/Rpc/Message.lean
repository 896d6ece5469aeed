import BytecodeHost.Image.Encoding
import BytecodeHost.Json.Parser
import BytecodeHost.Json.Printer
import BytecodeHost.ModuleStore
import BytecodeHost.Snapshot.Info

/-!
# Remote calls: messages

Requests, the errors and results they are answered with, and both as JSON.

## Main definitions

* `Rpc.Request.ofJson?`: a request.
* `Rpc.Error`, `Rpc.Result`, `Rpc.Response`: answers.
* `Rpc.Reply.render`: the text of an answer.
-/

namespace BytecodeHost

namespace Rpc

/-- The protocol version that requests name and responses carry. -/
def protocolVersion : String := "2.0"

/-! ## Requests -/

/-- A request. -/
structure Request where
  /-- The protocol version. -/
  version : String := ""
  /-- What the caller tells its requests apart by. -/
  id : JsonValue := .null
  /-- What is asked for. -/
  method : String := ""
  /-- The arguments. -/
  params : JsonValue := .null

namespace Request

/-- A request with one more member read. -/
def readMember? (r : Request) (m : String × JsonValue) : Option Request :=
  let (name, v) := m
  if Text.isField "jsonrpc" name then
    (v.readText? r.version).map fun version => { r with version }
  else if Text.isField "id" name then v.rounded?.map fun id => { r with id }
  else if Text.isField "method" name then
    (v.readText? r.method).map fun method => { r with method }
  else if Text.isField "params" name then some { r with params := v }
  else some r

/-- The request that a value is. -/
def ofJson? (v : JsonValue) : Option Request :=
  match v.toMembers? with
  | some members => members.foldlM readMember? {}
  | none => none

end Request

/-! ## Errors -/

/-- What an error says besides its message. -/
inductive ErrorData where
  /-- The module that was asked for. -/
  | moduleRef (ref : String)
  /-- The label that was asked for. -/
  | label (l : String)
  /-- How far a call came. -/
  | callFailure (kind : Kind) (instructions : UInt64) (output : Text)

/-- An error response. -/
structure Error where
  /-- The number that programs match on. -/
  code : Int
  /-- What people read. -/
  message : Text
  /-- More for programs. -/
  data : Option ErrorData := none

namespace ErrorData

/-- The JSON of error data. -/
def toJson : ErrorData → JsonValue
  | moduleRef ref => .object [("module", .string ref)]
  | label l => .object [("label", .string l)]
  | callFailure kind instructions output =>
    .object [("errorCode", .ofInt kind.code.toInt), ("kind", .string kind.text),
      ("instructions", .ofNat instructions.toNat), ("output", .string output.lossy)]

/-- Error data in a message. -/
def text : ErrorData → Text
  | moduleRef ref => ("map[module:" ++ ref ++ "]" : String)
  | label l => ("map[label:" ++ l ++ "]" : String)
  | callFailure kind instructions output =>
    ("\x7b" ++ toString kind.code.toInt ++ " " ++ kind.text ++ " " ++ toString instructions.toNat
      ++ " " : String) ++ output ++ "\x7d"

end ErrorData

namespace Error

/-- The request is no JSON. -/
def parseError : Error := ⟨-32700, "Parse error", none⟩
/-- The request is no request. -/
def invalidRequest : Error := ⟨-32600, "Invalid Request", none⟩
/-- The method does not exist. -/
def methodNotFound (method : String) : Error :=
  ⟨-32601, ("Method not found: " ++ method : String), none⟩
/-- The arguments are wrong. -/
def invalidParams (message : Text) : Error := ⟨-32602, message, none⟩
/-- A store failed. -/
def internal (activity : String) (f : Failure) : Error :=
  ⟨-32603, (f.within ("failed to " ++ activity)).message, none⟩
/-- No stored module matches a reference. -/
def moduleNotFound (ref : String) : Error :=
  ⟨-32001, ("Module not found: " ++ ref : String), some (.moduleRef ref)⟩
/-- No snapshot has a label. -/
def snapshotNotFound (label : String) : Error :=
  ⟨-32002, ("Snapshot not found: " ++ label : String), some (.label label)⟩
/-- An image is refused. -/
def invalidModule (message : Text) : Error := ⟨-32003, message, none⟩
/-- A call failed inside the machine. -/
def executionFailed (f : Failure) (instructions : UInt64) (output : Text) : Error :=
  ⟨-32004, f.message, some (.callFailure (Failure.kindOf (some f)) instructions output)⟩
/-- The server keeps no snapshots. -/
def snapshotsDisabled : Error := ⟨-32005, "Snapshots are not enabled on this server", none⟩

/-- An error as one line. -/
def text (e : Error) : Text :=
  let head := s!"RPC error {e.code}: " ++ e.message
  match e.data with
  | none => head
  | some d => head ++ " (data: " ++ d.text ++ ")"

/-- The JSON of an error. -/
def toJson (e : Error) : JsonValue :=
  .object ([("code", .ofInt e.code), ("message", .string e.message.lossy)] ++
    match e.data with
    | none => []
    | some d => [("data", d.toJson)])

end Error

/-! ## Results -/

/-- How a call ended that did not fail. -/
structure CallSummary where
  /-- The module that was called. -/
  moduleId : ModuleId
  /-- The result word. -/
  value : UInt32
  /-- How many instructions were charged. -/
  instructions : UInt64
  /-- What was printed. -/
  output : Text
  /-- Whether some of it was dropped. -/
  truncated : Bool
  /-- The label that the arena was saved under, or nothing. -/
  snapshot : String

/-- What a request is answered with. -/
inductive Result where
  /-- The server works. -/
  | health
  /-- The server's version and the numbers of the traps it offers. -/
  | version (version : String) (traps : List Int32)
  /-- The stored modules. -/
  | modules (records : List ModuleRecord)
  /-- A module, with its image as text if that was asked for. -/
  | module (record : ModuleRecord) (image : Option (String × ImageEncoding))
  /-- Something was removed. -/
  | removed
  /-- A call ended. -/
  | called (summary : CallSummary)
  /-- The snapshots of a module. -/
  | snapshots (infos : List Snapshot.Info)

/-- A time in whole seconds. -/
def seconds (nanoseconds : Int) : Int :=
  nanoseconds.fdiv 1000000000

/-- The members that describe a module. -/
def recordMembers (r : ModuleRecord) : List (String × JsonValue) :=
  [("id", .string r.id.toText), ("name", .string r.name), ("size", .ofNat r.size),
   ("instructionCount", .ofInt r.instructionCount.toInt),
   ("codeLength", .ofInt r.codeLength.toInt), ("dataLength", .ofInt r.dataLength.toInt),
   ("litLength", .ofInt r.litLength.toInt), ("bssLength", .ofInt r.bssLength.toInt),
   ("arenaSize", .ofNat r.arenaSize.toNat), ("addedAt", .ofInt (seconds r.addedAt))]

/-- The JSON of a snapshot's description. -/
def infoJson (i : Snapshot.Info) : JsonValue :=
  .object [("label", .string i.label), ("size", .ofInt i.size), ("stored", .ofInt i.stored),
    ("digest", .string (Base58.encode i.digest)), ("createdAt", .ofInt i.createdSeconds)]

/-- The JSON of the end of a call. -/
def CallSummary.toJson (s : CallSummary) : JsonValue :=
  .object ([("module", .string s.moduleId.toText), ("result", .ofInt s.value.toInt32.toInt),
      ("instructions", .ofNat s.instructions.toNat), ("output", .string s.output.lossy)]
    ++ (if s.truncated then [("truncated", .bool true)] else [])
    ++ (if s.snapshot = "" then [] else [("snapshot", .string s.snapshot)]))

/-- The JSON of a result. -/
def Result.toJson : Result → JsonValue
  | health => .string "ok"
  | version v traps =>
    .object [("qvm", .string v), ("traps", .array (traps.map fun n => .ofInt n.toInt))]
  | modules records => .array (records.map fun r => .object (recordMembers r))
  | module r none => .object (recordMembers r)
  | module r (some (text, e)) =>
    .object (recordMembers r ++ [("data", .array [.string text, .string e.name])])
  | removed => .bool true
  | called s => s.toJson
  | snapshots infos => .array (infos.map infoJson)

/-! ## Responses -/

/-- The answer to one request. -/
structure Response where
  /-- The identifier of the request. -/
  id : JsonValue
  /-- What it is answered with. -/
  outcome : Except Error Result

/-- The JSON of a response. -/
def Response.toJson (r : Response) : JsonValue :=
  .object ([("jsonrpc", .string protocolVersion), ("id", r.id)] ++
    match r.outcome with
    | .ok result => [("result", result.toJson)]
    | .error e => [("error", e.toJson)])

/-- The answer to a message. -/
inductive Reply where
  /-- The answer to one request. -/
  | single (r : Response)
  /-- The answers to the requests of a batch, in their order. -/
  | batch (rs : List Response)

/-- The answer to a message that is no request. -/
def Reply.refuse (e : Error) : Reply :=
  .single ⟨.null, .error e⟩

/-- The text of an answer, one line. -/
def Reply.render (r : Reply) : String :=
  let json := match r with
    | single r => r.toJson
    | batch rs => .array (rs.map Response.toJson)
  json.render ++ "\n"

end Rpc

end BytecodeHost
