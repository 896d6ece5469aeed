import BytecodeHost.Proofs.Bytes
import BytecodeHost.Proofs.Json.Reading
import BytecodeHost.Proofs.Path
import BytecodeHost.Rpc.Http

/-!
# Batches

A batch is answered as its requests are when they are posted one by one: with the same answers, in
the same order, and with the same storage after each of them. A request that does not name the
protocol version is refused at its place, and the requests behind it are answered as if it were not
there.

What a batch cannot hold is a request that is nested as deep as values may be, because the array
around it takes a level too. Posted alone, such a request is read.

## Main definitions

* `Rpc.Http.Request.Posts` — a request whose body is taken as a message
* `Rpc.Http.Request.carrying`, `Rpc.Http.deliver` — such a request and the response to it
* `Rpc.Server.sendEach` — messages are posted one by one

## Main results

* `Rpc.answerMessage_single`, `Rpc.answerMessage_arrayText` — what is answered to a message
* `Rpc.Server.handle_carrying` — what is answered to a post
* `Rpc.Server.batch_eq_one_by_one` — a batch comes to what its requests come to
-/

namespace BytecodeHost

namespace Rpc

/-! ## Messages -/

/-- A text is that of a request. -/
def Request.HasText (q : Request) (text : List UInt8) : Prop :=
  (JsonValue.parse? text).bind ofJson? = some q

/-- The request of a text is that of the value which is read. -/
theorem Request.HasText.exists_value {q : Request} {text : List UInt8} (h : q.HasText text) :
    ∃ v, JsonValue.parse? text = some v ∧ ofJson? v = some q :=
  Option.bind_eq_some_iff.mp h

/-- No request is an array. -/
theorem Request.HasText.isBatch {q : Request} {text : List UInt8} (h : q.HasText text) :
    isBatch text = false := by
  obtain ⟨v, hparse, hv⟩ := h.exists_value
  cases text with
  | nil => rfl
  | cons b rest =>
    by_cases hb : b = 0x5B
    · obtain ⟨after, hread, -⟩ := JsonValue.parse?_eq_some_iff.mp hparse
      rw [hb] at hread
      obtain ⟨items, rfl⟩ := JsonValue.exists_array_of_read? hread
      contradiction
    · simpa [Rpc.isBatch] using hb

/-- No text is that of a value which takes all levels. -/
def Shallow (texts : List (List UInt8)) : Prop :=
  ∀ t ∈ texts, ∀ v, JsonValue.parse? t = some v → v.depth < JsonValue.maxDepth

/-- The values of texts that are requests. -/
theorem exists_values {texts : List (List UInt8)} {requests : List Request}
    (h : List.Forall₂ (fun t (q : Request) => q.HasText t) texts requests)
    (hdepth : Shallow texts) :
    ∃ vs, List.Forall₂ (fun t v => JsonValue.parse? t = some v) texts vs ∧
      vs.mapM Request.ofJson? = some requests ∧ ∀ v ∈ vs, v.depth < JsonValue.maxDepth := by
  induction h with
  | nil => exact ⟨[], .nil, rfl, fun v hv => by contradiction⟩
  | @cons t q texts requests hfirst _ ih =>
    obtain ⟨v, hparse, hv⟩ := hfirst.exists_value
    obtain ⟨vs, hrest, hmap, hshallow⟩ := ih fun u hu => hdepth u (List.mem_cons_of_mem t hu)
    refine ⟨v :: vs, .cons hparse hrest, by simp [hv, hmap],
      List.forall_mem_cons.mpr ⟨?_, hshallow⟩⟩
    exact hdepth t List.mem_cons_self v hparse

section

variable [Zstd.Compressor] {w : Setting} {s : Storage}

theorem answerMessage_single {q : Request} {text : List UInt8} (h : q.HasText text) :
    answerMessage w s text = (answer w s q).map fun r => (r.1, .single r.2) := by
  rw [answerMessage, h.isBatch, if_neg Bool.false_ne_true, answerSingle]
  rw [Request.HasText] at h
  rw [h]

/-- **A batch is answered request by request.** -/
theorem answerMessage_arrayText {texts : List (List UInt8)} {requests : List Request}
    (h : List.Forall₂ (fun t (q : Request) => q.HasText t) texts requests) (hne : texts ≠ [])
    (hdepth : Shallow texts) {blanks : List UInt8} (hblanks : JsonValue.skipBlank blanks = []) :
    answerMessage w s (JsonValue.arrayText texts ++ blanks)
      = (answerAll w s requests).map fun r => (r.1, .batch r.2) := by
  obtain ⟨vs, hparse, hmap, hshallow⟩ := exists_values h hdepth
  have harray : isBatch (JsonValue.arrayText texts ++ blanks) = true := rfl
  have hbatch : batchOfJson? (.array vs) = some requests := hmap
  rw [answerMessage, harray, if_pos rfl, answerBatch,
    JsonValue.parse?_arrayText hparse hne hshallow hblanks, Option.bind_some, hbatch]
  cases h with
  | nil => exact absurd rfl hne
  | cons _ _ => rfl

/-! ## Requests one after the other -/

theorem answerAll_cons (q : Request) (rest : List Request) :
    answerAll w s (q :: rest) = (answer w s q).bind fun r =>
      (answerAll w r.1 rest).map fun r' => (r'.1, r.2 :: r'.2) := by
  rw [answerAll]
  cases answer w s q with
  | none => rfl
  | some r => cases h : answerAll w r.1 rest <;> simp [h]

section

variable {s' : Storage} {requests rest : List Request} {rs : List Response} {q : Request}

theorem answerAll_cons_of_answer {s₁ : Storage} {r : Response}
    (hfirst : answer w s q = some (s₁, r)) (hrest : answerAll w s₁ rest = some (s', rs)) :
    answerAll w s (q :: rest) = some (s', r :: rs) := by
  rw [answerAll_cons, hfirst, Option.bind_some, hrest, Option.map_some]

theorem exists_of_answerAll_cons (h : answerAll w s (q :: rest) = some (s', rs)) :
    ∃ s₁ r rs', answer w s q = some (s₁, r) ∧ answerAll w s₁ rest = some (s', rs') ∧
      rs = r :: rs' := by
  rw [answerAll_cons] at h
  obtain ⟨⟨s₁, r⟩, hfirst, hmap⟩ := Option.bind_eq_some_iff.mp h
  obtain ⟨⟨s₂, rs'⟩, hrest, heq⟩ := Option.map_eq_some_iff.mp hmap
  obtain ⟨rfl, rfl⟩ := Prod.mk.inj heq
  exact ⟨s₁, r, rs', hfirst, hrest, rfl⟩

theorem length_of_answerAll (h : answerAll w s requests = some (s', rs)) :
    rs.length = requests.length := by
  induction requests generalizing s rs with
  | nil =>
    obtain ⟨rfl, rfl⟩ := Prod.mk.inj (Option.some.inj h)
    rfl
  | cons q rest ih =>
    obtain ⟨s₁, r, rs', -, hrest, rfl⟩ := exists_of_answerAll_cons h
    rw [List.length_cons, List.length_cons, ih hrest]

/-- **Each request is answered on the storage that those before it have left behind.** -/
theorem exists_answer_of_answerAll (h : answerAll w s requests = some (s', rs)) {k : Nat}
    (hq : requests[k]? = some q) :
    ∃ sₖ r sₗ, answerAll w s (requests.take k) = some (sₖ, rs.take k) ∧
      answer w sₖ q = some (sₗ, r) ∧ rs[k]? = some r ∧
      answerAll w s (requests.take (k + 1)) = some (sₗ, rs.take (k + 1)) := by
  induction requests generalizing s rs k with
  | nil =>
    rw [List.getElem?_nil] at hq
    contradiction
  | cons p rest ih =>
    obtain ⟨s₁, r, rs', hfirst, hrest, rfl⟩ := exists_of_answerAll_cons h
    cases k with
    | zero =>
      obtain rfl : p = q := Option.some.inj hq
      exact ⟨s, r, s₁, rfl, hfirst, rfl, answerAll_cons_of_answer hfirst rfl⟩
    | succ k =>
      obtain ⟨sₖ, r', sₗ, htake, hr', hget, hnext⟩ := ih hrest hq
      exact ⟨sₖ, r', sₗ, answerAll_cons_of_answer hfirst htake, hr', hget,
        answerAll_cons_of_answer hfirst hnext⟩

end

theorem answer_of_version_ne {q : Request} (h : q.version ≠ protocolVersion) :
    answer w s q = some (s, ⟨q.id, .error .invalidRequest⟩) :=
  if_pos h

end

/-! ## Posts -/

namespace Http

/-- A request is handed on as a message: it is posted as JSON, to a path in its normal spelling. -/
structure Request.Posts (r : Request) : Prop where
  method : r.method = "POST"
  content : r.header "Content-Type" = "" ∨ r.header "Content-Type" = "application/json"
  /-- It names a path. -/
  target : r.target ≠ "*"
  /-- The path is in its normal spelling. -/
  path : canonicalPath r.path = r.path

theorem canonicalPath_root : canonicalPath "/" = "/" := by
  have hrooted : "/".startsWith "/" = true :=
    String.startsWith_string_iff.mpr (List.prefix_refl _)
  rw [canonicalPath, if_pos hrooted, Path.clean_root]
  exact if_neg fun h => h.2 rfl

/-- A request is taken as a message if nothing else is said. -/
theorem Request.posts_default : ({} : Request).Posts where
  method := rfl
  content := .inl rfl
  target := by decide
  path := by
    have hpath : ({} : Request).path = "/" := by decide +kernel
    rw [hpath, canonicalPath_root]

/-- A request with another body. -/
def Request.carrying (r : Request) (text : List UInt8) : Request :=
  { r with body := text.toByteArray }

/-- The response that brings an answer. -/
def deliver (config : Config) (r : Request) (reply : Reply) : Response :=
  { headers := (if config.enableCors then welcome config r else []) ++
      [("Content-Type", "application/json")]
    body := .reply reply }

theorem readBody_toByteArray {config : Config} {text : List UInt8}
    (h : (text.length : Int) ≤ config.maxRequestSize) :
    readBody config text.toByteArray = text := by
  have hsize : text.toByteArray.size ≤ config.maxRequestSize.toNat := by
    rw [List.size_toByteArray]
    omega
  rw [readBody, Bytes.extract_of_size_le hsize, Bytes.toList_eq, Bytes.toBytes,
    List.data_toByteArray]

/-- A message that is posted is answered. -/
theorem handle_carrying [Zstd.Compressor] {config : Config} {r : Request} (h : r.Posts)
    {text : List UInt8} (hsize : (text.length : Int) ≤ config.maxRequestSize) (env : Environment)
    (s : Storage) :
    handle config env s (r.carrying text)
      = (answerMessage ⟨config, env, r.canceled⟩ s text).map fun o =>
          (o.1, deliver config r o.2) := by
  have hmethod : ¬ (r.carrying text).method ≠ "POST" := fun hne => hne h.method
  have hcontent : ¬ ((r.carrying text).header "Content-Type" ≠ "" ∧
      (r.carrying text).header "Content-Type" ≠ "application/json") := by
    rintro ⟨hempty, hjson⟩
    exact h.content.elim hempty hjson
  have hserve : serve config env s (r.carrying text)
      = (answerMessage ⟨config, env, r.canceled⟩ s text).map fun o => (o.1, ofReply o.2) := by
    have hbody : readBody config (r.carrying text).body = text := readBody_toByteArray hsize
    rw [serve, if_neg hmethod, if_neg hcontent, hbody]
    rfl
  have hcanonical : ¬ (canonicalPath (r.carrying text).path ≠ (r.carrying text).path ∧
      (r.carrying text).method ≠ "CONNECT") := fun hne => hne.1 h.path
  have hroute : route config env s (r.carrying text)
      = (answerMessage ⟨config, env, r.canceled⟩ s text).map fun o => (o.1, ofReply o.2) := by
    rw [route, if_neg (show (r.carrying text).target ≠ "*" from h.target), if_neg hcanonical,
      hserve]
  have hoptions : (r.carrying text).method ≠ "OPTIONS" := by
    rw [show (r.carrying text).method = "POST" from h.method]
    decide
  rw [handle]
  split_ifs with hcors
  · rw [hroute, Option.map_map]
    congr 1
    funext o
    simp only [Function.comp_apply, ofReply, deliver, if_pos hcors]
    rfl
  · rw [hroute]
    congr 1
    funext o
    simp only [ofReply, deliver, if_neg hcors]
    rfl

end Http

/-! ## Batches -/

namespace Server

/-- Posts texts one after the other. -/
def sendEach [Zstd.Compressor] (server : Server) (env : Environment) (r : Http.Request) :
    List (List UInt8) → Option (Server × List Http.Response)
  | [] => some (server, [])
  | text :: rest => do
    let (server, response) ← server.handle env (r.carrying text)
    let (server, responses) ← sendEach server env r rest
    return (server, response :: responses)

/-- What the requests that arrive in a post are answered with. -/
def setting (server : Server) (env : Environment) (r : Http.Request) : Setting :=
  ⟨server.config, env, r.canceled⟩

section

variable [Zstd.Compressor] {server : Server} {r : Http.Request}

theorem handle_carrying (hr : r.Posts) {text : List UInt8}
    (hsize : (text.length : Int) ≤ server.config.maxRequestSize) (env : Environment) :
    server.handle env (r.carrying text)
      = (answerMessage (server.setting env r) server.storage text).map fun o =>
          ({ server with storage := o.1 }, Http.deliver server.config r o.2) := by
  rw [handle, Http.handle_carrying hr hsize, Option.map_map]
  rfl

theorem sendEach_cons (env : Environment) (text : List UInt8) (rest : List (List UInt8)) :
    server.sendEach env r (text :: rest) = (server.handle env (r.carrying text)).bind fun o =>
      (o.1.sendEach env r rest).map fun o' => (o'.1, o.2 :: o'.2) := by
  rw [sendEach]
  cases server.handle env (r.carrying text) with
  | none => rfl
  | some o => cases h : o.1.sendEach env r rest <;> simp [h]

/-- Posts are answered request by request. -/
theorem sendEach_eq (hr : r.Posts) {texts : List (List UInt8)} {requests : List Request}
    (h : List.Forall₂ (fun t (q : Request) => q.HasText t) texts requests)
    (hsize : ∀ t ∈ texts, (t.length : Int) ≤ server.config.maxRequestSize) (env : Environment) :
    server.sendEach env r texts
      = (answerAll (server.setting env r) server.storage requests).map fun o =>
          ({ server with storage := o.1 },
            o.2.map fun x => Http.deliver server.config r (.single x)) := by
  induction h generalizing server with
  | nil => rfl
  | @cons t q texts requests hfirst _ ih =>
    rw [sendEach_cons, answerAll_cons, handle_carrying hr (hsize t List.mem_cons_self),
      answerMessage_single hfirst]
    cases answer (server.setting env r) server.storage q with
    | none => rfl
    | some o =>
      have hsetting : setting { server with storage := o.1 } env r = server.setting env r := rfl
      have hrest := @ih { server with storage := o.1 } fun u hu =>
        hsize u (List.mem_cons_of_mem t hu)
      rw [hsetting] at hrest
      simp only [Option.map_some, Option.bind_some, hrest, Option.map_map]
      rfl

/-- **A batch comes to what its requests come to.** Post the texts of requests one by one, or as the
items of an array: the answers are the same, in the same order, and so is the storage after each of
them. A request that does not name the protocol version is refused at its place, without an effect.
No request may take all the levels that values may have, because the array takes one. -/
theorem batch_eq_one_by_one (hr : r.Posts) {texts : List (List UInt8)} {requests : List Request}
    (h : List.Forall₂ (fun t (q : Request) => q.HasText t) texts requests) (hne : texts ≠ [])
    (hdepth : Shallow texts) {blanks : List UInt8} (hblanks : JsonValue.skipBlank blanks = [])
    (hsize : ((JsonValue.arrayText texts ++ blanks).length : Int) ≤ server.config.maxRequestSize)
    (env : Environment) :
    server.handle env (r.carrying (JsonValue.arrayText texts ++ blanks))
      = (answerAll (server.setting env r) server.storage requests).map (fun o =>
          ({ server with storage := o.1 }, Http.deliver server.config r (.batch o.2))) ∧
    (∀ k, server.sendEach env r (texts.take k)
      = (answerAll (server.setting env r) server.storage (requests.take k)).map fun o =>
          ({ server with storage := o.1 },
            o.2.map fun x => Http.deliver server.config r (.single x))) ∧
    ∀ s rs, answerAll (server.setting env r) server.storage requests = some (s, rs) →
      rs.length = requests.length ∧
      ∀ k q, requests[k]? = some q → ∃ sₖ sₗ x,
        answerAll (server.setting env r) server.storage (requests.take k)
          = some (sₖ, rs.take k) ∧
        answerAll (server.setting env r) server.storage (requests.take (k + 1))
          = some (sₗ, rs.take (k + 1)) ∧
        rs[k]? = some x ∧
        (q.version ≠ protocolVersion → sₗ = sₖ ∧ x = ⟨q.id, .error .invalidRequest⟩) := by
  refine ⟨?_, ?_, ?_⟩
  · rw [handle_carrying hr hsize, answerMessage_arrayText h hne hdepth hblanks, Option.map_map]
    rfl
  · intro k
    refine sendEach_eq hr (List.forall₂_take k h) (fun t ht => ?_) env
    have hlength := JsonValue.length_le_of_mem (List.mem_of_mem_take ht)
    rw [List.length_append] at hsize
    omega
  · intro s rs hall
    refine ⟨length_of_answerAll hall, fun k q hq => ?_⟩
    obtain ⟨sₖ, x, sₗ, htake, hx, hget, hnext⟩ := exists_answer_of_answerAll hall hq
    refine ⟨sₖ, sₗ, x, htake, hnext, hget, fun hversion => ?_⟩
    rw [answer_of_version_ne hversion] at hx
    obtain ⟨rfl, rfl⟩ := Prod.mk.inj (Option.some.inj hx)
    exact ⟨rfl, rfl⟩

end

/-- The text of a request that names the protocol version, and of one that does not. -/
def sampleTexts : List (List UInt8) :=
  [Bytes.toBytes "\x7b\"jsonrpc\":\"2.0\",\"method\":\"getHealth\"\x7d".toUTF8,
    Bytes.toBytes "\x7b\"id\":\"b\",\"method\":\"getHealth\"\x7d".toUTF8]

/-- The second request is refused at its place. -/
theorem batch_eq_one_by_one_sample :
    handle {} ⟨0, 0, 10, 100⟩ (({} : Http.Request).carrying
        (JsonValue.arrayText sampleTexts ++ [0x0A]))
      = some ({}, Http.deliver {} {}
          (.batch [⟨.null, .ok .health⟩, ⟨.string "b", .error .invalidRequest⟩])) := by
  have hrequests : List.Forall₂ (fun t (q : Request) => q.HasText t) sampleTexts
      [{ version := "2.0", method := "getHealth" },
        { id := .string "b", method := "getHealth" }] := by
    refine .cons ?_ (.cons ?_ .nil)
    · rfl
    · rfl
  have hshallow : Shallow sampleTexts := by
    intro t ht v hv
    obtain rfl | rfl : t = sampleTexts[0] ∨ t = sampleTexts[1] := by simpa [sampleTexts] using ht
    · obtain rfl : .object [("jsonrpc", .string "2.0"), ("method", .string "getHealth")] = v :=
        Option.some.inj hv
      decide
    · obtain rfl : .object [("id", .string "b"), ("method", .string "getHealth")] = v :=
        Option.some.inj hv
      decide
  have hblank : JsonValue.skipBlank [0x0A] = [] := rfl
  exact (batch_eq_one_by_one Http.Request.posts_default hrequests (by decide) hshallow hblank
    (by decide) ⟨0, 0, 10, 100⟩).1

end Server

/-! ### A request that takes all levels -/

/-- The text of a request whose parameters are nested. -/
def nestedRequestText (n : Nat) : List UInt8 :=
  Bytes.toBytes "\x7b\"jsonrpc\":\"2.0\",\"method\":\"getHealth\",\"params\":".toUTF8 ++
    (JsonValue.nestedText n ++ [0x7D])

/-- Its value. -/
def nestedRequest (n : Nat) : JsonValue :=
  .object [("jsonrpc", .string "2.0"), ("method", .string "getHealth"),
    ("params", .nested n)]

theorem depth_nestedRequest (n : Nat) : (nestedRequest n).depth = n + 2 := by
  simp [nestedRequest, JsonValue.depth_object, JsonValue.depthMembers, JsonValue.depth,
    JsonValue.depth_nested]

theorem parse?_nestedRequestText {n : Nat} (h : n + 2 ≤ JsonValue.maxDepth) :
    JsonValue.parse? (nestedRequestText n) = some (nestedRequest n) := by
  have hlength : 2 * n + 20 ≤ (nestedRequestText n).length := by
    rw [nestedRequestText, List.length_append, List.length_append, JsonValue.length_nestedText,
      List.length_singleton]
    have : 17 ≤ (Bytes.toBytes
      "\x7b\"jsonrpc\":\"2.0\",\"method\":\"getHealth\",\"params\":".toUTF8).length := by
      decide
    omega
  obtain ⟨fuel, hfuel⟩ : ∃ k, 2 * (nestedRequestText n).length + 2 = k + 4 :=
    ⟨2 * (nestedRequestText n).length - 2, by omega⟩
  obtain ⟨levels, hlevels⟩ : ∃ l, JsonValue.maxDepth = l + 1 := ⟨9999, rfl⟩
  have hversion : JsonValue.read? (fuel + 2) levels
      (Bytes.toBytes "\"2.0\",\"method\":\"getHealth\",\"params\":".toUTF8 ++
        (JsonValue.nestedText n ++ [0x7D]))
      = some (.string "2.0", Bytes.toBytes ",\"method\":\"getHealth\",\"params\":".toUTF8 ++
        (JsonValue.nestedText n ++ [0x7D])) :=
    (JsonValue.read?_scalar (b := 0x22) rfl (by decide) (by decide)).trans rfl
  have hmethod : JsonValue.read? (fuel + 1) levels
      (Bytes.toBytes "\"getHealth\",\"params\":".toUTF8 ++ (JsonValue.nestedText n ++ [0x7D]))
      = some (.string "getHealth", Bytes.toBytes ",\"params\":".toUTF8 ++
        (JsonValue.nestedText n ++ [0x7D])) :=
    (JsonValue.read?_scalar (b := 0x22) rfl (by decide) (by decide)).trans rfl
  have hparams : JsonValue.read? fuel levels (JsonValue.nestedText n ++ [0x7D])
      = some (.nested n, [0x7D]) :=
    JsonValue.read?_nestedText (by omega) (by omega) [0x7D]
  refine JsonValue.parse?_eq_some_iff.mpr ⟨[], ?_, rfl⟩
  calc JsonValue.read? (2 * (nestedRequestText n).length + 2) JsonValue.maxDepth
        (nestedRequestText n)
      = JsonValue.readMembers? (fuel + 3) levels []
          (Bytes.toBytes "\"jsonrpc\":\"2.0\",\"method\":\"getHealth\",\"params\":".toUTF8 ++
            (JsonValue.nestedText n ++ [0x7D])) := by
        rw [hfuel, hlevels]
        exact (JsonValue.read?_brace rfl rfl).trans (if_neg (by decide))
    _ = JsonValue.readMembers? (fuel + 2) levels [("jsonrpc", .string "2.0")]
          (Bytes.toBytes "\"method\":\"getHealth\",\"params\":".toUTF8 ++
            (JsonValue.nestedText n ++ [0x7D])) :=
        (JsonValue.readMembers?_step rfl rfl rfl hversion rfl []).trans (if_pos rfl)
    _ = JsonValue.readMembers? (fuel + 1) levels
          [("method", .string "getHealth"), ("jsonrpc", .string "2.0")]
          (Bytes.toBytes "\"params\":".toUTF8 ++ (JsonValue.nestedText n ++ [0x7D])) :=
        (JsonValue.readMembers?_step rfl rfl rfl hmethod rfl _).trans (if_pos rfl)
    _ = some (nestedRequest n, []) :=
        ((JsonValue.readMembers?_step rfl rfl rfl hparams rfl _).trans
          (if_neg (by decide))).trans (if_pos rfl)

theorem length_nestedRequestText (n : Nat) : (nestedRequestText n).length = 2 * n + 50 := by
  have hfront : (Bytes.toBytes
      "\x7b\"jsonrpc\":\"2.0\",\"method\":\"getHealth\",\"params\":".toUTF8).length = 47 :=
    rfl
  rw [nestedRequestText, List.length_append, List.length_append, hfront,
    JsonValue.length_nestedText, List.length_singleton]
  omega

theorem hasText_nestedRequestText {n : Nat} (h : n + 2 ≤ JsonValue.maxDepth) :
    Request.HasText { version := "2.0", method := "getHealth", params := .nested n }
      (nestedRequestText n) := by
  rw [Request.HasText, parse?_nestedRequestText h]
  rfl

/-- A request that takes all levels is answered alone, and it makes a batch unreadable. -/
theorem nested_request_not_in_batch :
    Request.HasText { version := "2.0", method := "getHealth", params := .nested 9998 }
      (nestedRequestText 9998) ∧
    ((JsonValue.arrayText [nestedRequestText 9998]).length : Int)
      ≤ ({} : Server).config.maxRequestSize ∧
    ({} : Server).handle ⟨0, 0, 10, 100⟩
        (({} : Http.Request).carrying (nestedRequestText 9998))
      = some ({}, Http.deliver {} {} (.single ⟨.null, .ok .health⟩)) ∧
    ({} : Server).handle ⟨0, 0, 10, 100⟩
        (({} : Http.Request).carrying (JsonValue.arrayText [nestedRequestText 9998]))
      = some ({}, Http.deliver {} {} (.single ⟨.null, .error .parseError⟩)) := by
  have hlevels : 9998 + 2 ≤ JsonValue.maxDepth := by decide
  have hdepth : JsonValue.maxDepth ≤ (nestedRequest 9998).depth := by
    rw [depth_nestedRequest]
    decide
  have hunread := JsonValue.parse?_arrayText_eq_none (parse?_nestedRequestText hlevels) hdepth []
  rw [List.append_nil] at hunread
  have hbatch : isBatch (JsonValue.arrayText [nestedRequestText 9998]) = true := rfl
  have hsingleSize : ((nestedRequestText 9998).length : Int)
      ≤ ({} : Server).config.maxRequestSize := by
    rw [length_nestedRequestText]
    decide
  have hbatchSize : ((JsonValue.arrayText [nestedRequestText 9998]).length : Int)
      ≤ ({} : Server).config.maxRequestSize := by
    rw [JsonValue.arrayText, List.intercalate_singleton, List.length_cons, List.length_append,
      length_nestedRequestText]
    decide
  refine ⟨hasText_nestedRequestText hlevels, hbatchSize, ?_, ?_⟩
  · rw [Server.handle_carrying Http.Request.posts_default hsingleSize,
      answerMessage_single (hasText_nestedRequestText hlevels)]
    rfl
  · rw [Server.handle_carrying Http.Request.posts_default hbatchSize, answerMessage, hbatch,
      if_pos rfl, answerBatch, hunread]
    rfl

end Rpc

end BytecodeHost
