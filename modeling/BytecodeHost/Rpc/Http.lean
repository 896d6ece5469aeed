import BytecodeHost.Encoding.Percent
import BytecodeHost.Path
import BytecodeHost.Rpc.Server

/-!
# Remote calls over HTTP

Messages arrive as the bodies of POST requests to any path. Requests from other sites are told
whether they are welcome, if the server is set up for that.

## Main definitions

* `Rpc.Http.handle`: answers a request.
* `Rpc.Server`: storage, settings and whether the server listens.
* `Rpc.listenFailure`: why an address cannot be listened on.
-/

namespace BytecodeHost

namespace Rpc

variable [Zstd.Compressor]

namespace Http

/-- A request. -/
structure Request where
  method : String := "POST"
  /-- The path, with what was asked of it. -/
  target : String := "/"
  headers : List (String × String) := []
  body : ByteArray := .empty
  /-- Whether the caller has given up already. -/
  canceled : Bool := false

/-- What a response carries. -/
inductive Body where
  /-- Plain text. -/
  | text (s : String)
  /-- The answer to a message. -/
  | reply (r : Reply)

/-- The text of a body. -/
def Body.render : Body → String
  | text s => s
  | reply r => r.render

/-- A response. -/
structure Response where
  status : Nat := 200
  headers : List (String × String) := []
  body : Body

/-- The value of a header, whose name may be written in either case; empty if it is missing. -/
def Request.header (r : Request) (name : String) : String :=
  match r.headers.find? fun h => h.1.toLower == name.toLower with
  | some (_, v) => v
  | none => ""

/-- A target without the scheme and the host that may stand before its path. -/
def withoutHost (target : List Char) : List Char :=
  if target.head? = some '/' then target
  else
    match target.dropWhile (· ≠ ':') with
    | ':' :: '/' :: '/' :: rest => rest.dropWhile (· ≠ '/')
    | _ => target

/-- The path of a request in its normal spelling, without its query. -/
def Request.path (r : Request) : String :=
  Percent.normalize (String.ofList (withoutHost (r.target.toList.takeWhile (· ≠ '?'))))

/-- The query of a request with its mark; a mark alone counts as none. -/
def Request.query (r : Request) : String :=
  match r.target.toList.dropWhile (· ≠ '?') with
  | ['?'] => ""
  | query => String.ofList query

/-- The response with the answer to a message. -/
def ofReply (r : Reply) : Response :=
  { headers := [("Content-Type", "application/json")], body := .reply r }

/-- The response to a method other than POST. -/
def methodNotAllowed : Response :=
  { status := 405
    headers := [("Content-Type", "text/plain; charset=utf-8"),
      ("X-Content-Type-Options", "nosniff")]
    body := .text "Method not allowed\n" }

/-- A path as requests have to name it: without empty parts, `.` and `..`, its last slash kept. -/
def canonicalPath (path : String) : String :=
  let rooted := if path.startsWith "/" then path else "/" ++ path
  let clean := Path.clean rooted
  if rooted.endsWith "/" ∧ clean ≠ "/" then clean ++ "/" else clean

/-- Text inside markup. -/
def escapeMarkup (s : String) : String :=
  s.foldl (fun out c =>
    match c with
    | '&' => out ++ "&amp;"
    | '<' => out ++ "&lt;"
    | '>' => out ++ "&gt;"
    | '"' => out ++ "&#34;"
    | '\'' => out ++ "&#39;"
    | c => out.push c) ""

/-- Sends a request to another path. -/
def redirect (r : Request) (target : String) : Response :=
  let isPage := r.method = "GET" ∨ r.method = "HEAD"
  { status := 301
    headers := if isPage then [("Content-Type", "text/html; charset=utf-8")] else []
    body := .text (if r.method = "GET" then
      "<a href=\"" ++ escapeMarkup target ++ "\">Moved Permanently</a>.\n\n" else "") }

/-- The part of a body that is read. -/
def readBody (config : Config) (body : ByteArray) : List UInt8 :=
  (body.extract 0 config.maxRequestSize.toNat).toList

/-- Answers a request to a canonical path. -/
def serve (config : Config) (env : Environment) (s : Storage) (r : Request) :
    Option (Storage × Response) :=
  if r.method ≠ "POST" then some (s, methodNotAllowed)
  else
    let contentType := r.header "Content-Type"
    if contentType ≠ "" ∧ contentType ≠ "application/json" then
      some (s, ofReply (.refuse .invalidRequest))
    else
      (answerMessage ⟨config, env, r.canceled⟩ s (readBody config r.body)).map fun (s, reply) =>
        (s, ofReply reply)

/-- The response to a request that names no path at all. -/
def badRequest : Response :=
  { status := 400, body := .text "" }

/-- Answers a request by its path. -/
def route (config : Config) (env : Environment) (s : Storage) (r : Request) :
    Option (Storage × Response) :=
  let canonical := canonicalPath r.path
  if r.target = "*" then some (s, badRequest)
  else if canonical ≠ r.path ∧ r.method ≠ "CONNECT" then
    some (s, redirect r (canonical ++ r.query))
  else serve config env s r

/-- Whether a site may use the server. -/
def isAllowed (config : Config) (origin : String) : Bool :=
  match config.allowedOrigins.getD [] with
  | [] => true
  | origins => origins.any fun o => o == origin || o == "*"

/-- The headers that welcome a site. -/
def welcome (config : Config) (r : Request) : List (String × String) :=
  let origin := r.header "Origin"
  if origin ≠ "" ∧ isAllowed config origin then
    [("Access-Control-Allow-Origin", origin), ("Access-Control-Allow-Methods", "POST, OPTIONS"),
     ("Access-Control-Allow-Headers", "Content-Type"), ("Access-Control-Max-Age", "3600")]
  else []

/-- Answers a request. -/
def handle (config : Config) (env : Environment) (s : Storage) (r : Request) :
    Option (Storage × Response) :=
  if config.enableCors then
    let greeting := welcome config r
    if r.method = "OPTIONS" then
      some (s, { status := 204, headers := greeting, body := .text "" })
    else
      (route config env s r).map fun (s, response) =>
        (s, { response with headers := greeting ++ response.headers })
  else route config env s r

end Http

/-! ## Listening -/

/-- Why an address does not name a host and a port. -/
def addressProblem (address : String) : Option String :=
  let chars := address.toList
  let colons := chars.filter (· = ':')
  let last := chars.length - 1 - (chars.reverse.takeWhile (· ≠ ':')).length
  if colons.isEmpty then some "missing port in address"
  else
    let stray (from₁ from₂ : Nat) : Option String :=
      if (chars.drop from₁).contains '[' then some "unexpected '[' in address"
      else if (chars.drop from₂).contains ']' then some "unexpected ']' in address"
      else none
    if chars.head? = some '[' then
      let close := (chars.takeWhile (· ≠ ']')).length
      if close = chars.length then some "missing ']' in address"
      else if close + 1 = chars.length then some "missing port in address"
      else if close + 1 = last then stray 1 (close + 1)
      else if chars[close + 1]? = some ':' then some "too many colons in address"
      else some "missing port in address"
    else if 1 < colons.length then some "too many colons in address"
    else stray 0 0

/-- The ports that have a name. -/
def namedPorts : List String :=
  ["domain", "ftp", "ftps", "gopher", "http", "https", "imap2", "imap3", "imaps", "pop3", "pop3s",
   "smtp", "submissions", "ssh", "telnet"]

/-- The greatest port. -/
def maxPort : UInt32 := 65535

/-- A number far above all ports. -/
def farAbovePorts : UInt32 := 0x40000000

/-- The number that digits add to `n`, unless something else stands among them. Once the number is
far above all ports, what follows the next digit is not looked at. Numbers are taken modulo 2³². -/
def portNumber? (n : UInt32) : List Char → Option UInt32
  | [] => some n
  | c :: rest =>
    if !c.isDigit then none
    else if farAbovePorts ≤ n then some n
    else
      let next := 10 * n + (c.toNat - '0'.toNat).toUInt32
      if next < 10 * n then some farAbovePorts else portNumber? next rest

/-- Why the text after the last colon of an address is no port. -/
def portProblem (port : String) : Option String :=
  let digits := match port.toList with
    | '+' :: ds => ds
    | '-' :: ds => ds
    | ds => ds
  match portNumber? 0 digits with
  | some n =>
    if maxPort < n ∨ (port.startsWith "-" ∧ n ≠ 0) then
      some ("address " ++ port ++ ": invalid port")
    else none
  | none =>
    if namedPorts.contains port.toLower then none
    else some ("lookup tcp/" ++ port ++ ": unknown port")

/-- The text after the last colon of an address. -/
def portOf (address : String) : String :=
  String.ofList (address.toList.reverse.takeWhile (· ≠ ':')).reverse

/-- The failure to listen on an address, if it is plain from the address. -/
def listenFailure (address : String) : Option Failure :=
  let problem := match addressProblem address with
    | some p => some ("address " ++ address ++ ": " ++ p)
    | none => portProblem (portOf address)
  problem.map fun p => .plain ("listen tcp: " ++ p : String)

/-- A server over its storage. -/
structure Server where
  /-- The settings. -/
  config : Config := {}
  /-- The stores. -/
  storage : Storage := {}
  /-- Whether the server was started and not stopped since. -/
  running : Bool := false

namespace Server

/-- Starts a server; one that fails to listen counts as running until it is stopped. -/
def start (s : Server) : Server × Except Failure Unit :=
  if s.running then (s, .error (.plain "server already running"))
  else
    ({ s with running := true },
      match listenFailure s.config.addr with
      | some f => .error f
      | none => .ok ())

/-- Stops a server. -/
def stop (s : Server) : Server :=
  { s with running := false }

/-- Answers a request. -/
def handle (s : Server) (env : Environment) (r : Http.Request) : Option (Server × Http.Response) :=
  (Http.handle s.config env s.storage r).map fun (storage, response) =>
    ({ s with storage }, response)

end Server

end Rpc

end BytecodeHost
