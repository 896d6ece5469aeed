import BytecodeHost.Rpc.Method

/-!
# Remote calls: the server

A message is a request or a batch of requests. The requests of a batch are answered one after the
other, each on the storage that the one before left behind, exactly as if they had been sent one by
one.

## Main definitions

* `Rpc.answer`: one request.
* `Rpc.answerAll`: requests one after the other.
* `Rpc.answerMessage`: the bytes of a message.
-/

namespace BytecodeHost

namespace Rpc

variable [Zstd.Compressor]

/-- What stays the same while a server works. -/
structure Setting where
  /-- The server's settings. -/
  config : Config
  /-- What calls take from outside. -/
  env : Environment
  /-- Whether the caller has given up already. -/
  canceled : Bool := false

/-- Answers a request: the storage afterwards and the response. -/
def answer (w : Setting) (s : Storage) (r : Request) : Option (Storage × Response) :=
  if r.version ≠ protocolVersion then some (s, ⟨r.id, .error .invalidRequest⟩)
  else
    match dispatch w.config w.env w.canceled s r.method r.params with
    | none => none
    | some (s, outcome) => some (s, ⟨r.id, outcome⟩)

/-- Answers requests one after the other. -/
def answerAll (w : Setting) (s : Storage) : List Request → Option (Storage × List Response)
  | [] => some (s, [])
  | r :: rest => do
    let (s, response) ← answer w s r
    let (s, responses) ← answerAll w s rest
    return (s, response :: responses)

/-- The requests of a batch. -/
def batchOfJson? (v : JsonValue) : Option (List Request) :=
  match v.toItems? with
  | some items => items.mapM Request.ofJson?
  | none => none

/-- Answers a batch. -/
def answerBatch (w : Setting) (s : Storage) (body : List UInt8) : Option (Storage × Reply) :=
  match (JsonValue.parse? body).bind batchOfJson? with
  | none => some (s, .refuse .parseError)
  | some [] => some (s, .refuse .invalidRequest)
  | some requests => (answerAll w s requests).map fun (s, rs) => (s, .batch rs)

/-- Answers a single request. -/
def answerSingle (w : Setting) (s : Storage) (body : List UInt8) : Option (Storage × Reply) :=
  match (JsonValue.parse? body).bind Request.ofJson? with
  | none => some (s, .refuse .parseError)
  | some r => (answer w s r).map fun (s, r) => (s, .single r)

/-- Whether a message is a batch: its first byte opens an array. -/
def isBatch (body : List UInt8) : Bool :=
  body.head? == some 0x5B

/-- Answers a message. -/
def answerMessage (w : Setting) (s : Storage) (body : List UInt8) : Option (Storage × Reply) :=
  if isBatch body then answerBatch w s body else answerSingle w s body

end Rpc

end BytecodeHost
