import BytecodeHost.Proofs.Execution
import BytecodeHost.Proofs.Storage
import BytecodeHost.Rpc.Server

/-!
# Chained calls

A server runs each call in a fresh machine. A caller that wants to go on where the last call ended
has the arena saved under a label and the next call start from there. Nothing is lost that way: the
calls come to what they come to on one machine that is kept, because a machine at rest has no other
state that a call can see. The meter starts anew, the program stack is empty, and no heap is ever
set.

## Main definitions

* `Rpc.Exchange`, `Rpc.Exchange.Asks` — a request beside a call, and that it asks for the call
* `Rpc.answerEach` — requests are answered one after another
* `Rpc.Keeps` — a server has a module and keeps snapshots

## Main results

* `Rpc.Exchange.asks_plain` — every call can be asked for
* `Rpc.Exchange.Asks.exists_answer` — one request does what the call does
* `Rpc.answerEach_chained` — so do any number of them
* `Rpc.chained_calls_eq_one_machine` — from the image on
-/

namespace BytecodeHost

namespace Rpc

/-! ## Requests -/

/-- A request beside a call of a machine. -/
structure Exchange where
  /-- The call. -/
  turn : Turn
  /-- What the server has at hand for the request. -/
  setting : Setting
  /-- The request. -/
  request : Request
  /-- The parameters of the request. -/
  args : List JsonValue
  /-- The options among them. -/
  config : CallConfig

/-- The request of an exchange asks for its call of a stored module, from one snapshot and into
another, under an instruction limit. All output is kept, and the call has the time that it needs. -/
structure Exchange.Asks (s : Storage) (record : ModuleRecord) (limit : UInt64)
    (restore save : String) (x : Exchange) : Prop where
  version : x.request.version = protocolVersion
  method : x.request.method = "callModule"
  /-- The parameters. -/
  params : positional x.request.params 1 "module" = .ok x.args
  /-- The options. -/
  options : configArgument x.args CallConfig.ofJson? = .ok x.config
  /-- The module. -/
  resolves : resolveModule s x.args = .ok record
  command : wordOfInt x.config.command = x.turn.command
  arguments : x.config.args.map wordOfInt = x.turn.args
  restore : x.config.restore = restore
  save : x.config.save = save
  limit : x.config.maxInstructions.getD x.setting.config.maxInstructions = limit
  /-- No output is dropped. -/
  output : x.setting.config.maxOutput ≤ 0
  /-- No timeout fires. -/
  waits : Waits (x.setting.env.interruption x.setting.canceled
    (x.config.timeout x.setting.config.callTimeout)) x.turn.env.fuel
  /-- The fuel suffices. -/
  fuel : x.turn.env.fuel ≤ x.setting.env.fuel

/-! ### Plain requests -/

theorem readInt?_ofInt {low high : Int} (current : Int) {i : Int} (hlow : low ≤ i)
    (hhigh : i ≤ high) : (JsonValue.ofInt i).readInt? low high current = some i := by
  have hvalue : (if (Decimal.ofInt i).negative then -((Decimal.ofInt i).digits : Int)
      else (Decimal.ofInt i).digits) = i := by
    simp only [Decimal.ofInt, decide_eq_true_eq]
    omega
  simp only [JsonValue.ofInt, JsonValue.readInt?, hvalue]
  exact if_pos ⟨trivial, hlow, hhigh⟩

theorem readInt?_ofWord (current : Int) (w : UInt32) :
    (JsonValue.ofInt w.toInt32.toInt).readInt? CallConfig.minWord CallConfig.maxWord current
      = some w.toInt32.toInt :=
  readInt?_ofInt current w.toInt32.le_toInt (Int.le_of_lt_add_one w.toInt32.toInt_lt)

theorem readNat?_ofNat {high n : Nat} (h : n ≤ high) :
    (JsonValue.ofNat n).readNat? high = some (some n) := by
  have hvalue : Decimal.ofInt n = ⟨false, n, 0⟩ := by
    simp [Decimal.ofInt]
  rw [JsonValue.ofNat, JsonValue.ofInt, hvalue]
  exact if_pos ⟨rfl, Bool.false_ne_true, h⟩

theorem readWords?_ofWords (ws : List UInt32) :
    CallConfig.readWords? [] (ws.map fun w => .ofInt w.toInt32.toInt)
      = some (ws.map fun w => w.toInt32.toInt) := by
  induction ws with
  | nil => rfl
  | cons w ws ih =>
    rw [List.map_cons, CallConfig.readWords?, readInt?_ofWord]
    simp [ih]

/-- The options of a call that are written in plain requests. -/
def plainOptions (t : Turn) (restore save : String) : JsonValue :=
  .object [("command", .ofInt t.command.toInt32.toInt),
    ("args", .array (t.args.map fun w => .ofInt w.toInt32.toInt)), ("restore", .string restore),
    ("save", .string save)]

/-- What they say. -/
def plainConfig (t : Turn) (restore save : String) : CallConfig where
  command := t.command.toInt32.toInt
  buffer := t.args.map fun w => w.toInt32.toInt
  argCount := t.args.length
  restore := restore
  save := save

theorem readArgs?_ofWords (c : CallConfig) (hc : c.buffer = []) (ws : List UInt32) :
    c.readArgs? (.array (ws.map fun w => .ofInt w.toInt32.toInt))
      = some { c with buffer := ws.map fun w => w.toInt32.toInt, argCount := ws.length } := by
  cases ws with
  | nil => rfl
  | cons w ws =>
    have hwords := readWords?_ofWords (w :: ws)
    rw [List.map_cons, List.map_cons] at hwords ⊢
    simp only [CallConfig.readArgs?, JsonValue.toItems?, hc, hwords]
    simp

/-! Members of the options are told apart by their names. -/

theorem readMember?_command (c : CallConfig) (v : JsonValue) : c.readMember? ("command", v)
    = (v.readInt? CallConfig.minWord CallConfig.maxWord c.command).map
        fun command => { c with command } :=
  rfl

theorem readMember?_args (c : CallConfig) (v : JsonValue) :
    c.readMember? ("args", v) = c.readArgs? v :=
  rfl

theorem readMember?_maxInstructions (c : CallConfig) (v : JsonValue) :
    c.readMember? ("maxInstructions", v)
      = (v.readNat? (1 <<< 64 - 1)).map
          fun n => { c with maxInstructions := n.map (·.toUInt64) } :=
  rfl

theorem readMember?_restore (c : CallConfig) (v : JsonValue) : c.readMember? ("restore", v)
    = (v.readText? c.restore).map fun restore => { c with restore } :=
  rfl

theorem readMember?_save (c : CallConfig) (v : JsonValue) : c.readMember? ("save", v)
    = (v.readText? c.save).map fun save => { c with save } :=
  rfl

theorem ofJson?_plainOptions (t : Turn) (restore save : String) :
    CallConfig.ofJson? (plainOptions t restore save) = some (plainConfig t restore save) := by
  simp [CallConfig.ofJson?, plainOptions, JsonValue.toMembers?, readMember?_command,
    readMember?_args, readMember?_restore, readMember?_save, readInt?_ofWord, readArgs?_ofWords,
    JsonValue.readText?, plainConfig]

/-- A caller without a limit of its own has the server's. -/
theorem timeout_of_timeoutMs {c : CallConfig} (h : c.timeoutMs = 0) (serverLimit : Int) :
    c.timeout serverLimit = serverLimit := by
  have hown : (Int64.ofInt c.timeoutMs * 1000000).toInt = 0 := by
    rw [h, show Int64.ofInt 0 = 0 from rfl, Int64.zero_mul]
    rfl
  rw [CallConfig.timeout, hown]
  exact if_neg fun h => Int.lt_irrefl 0 h.1

theorem map_wordOfInt_args_plainConfig (t : Turn) (restore save : String) :
    (plainConfig t restore save).args.map wordOfInt = t.args := by
  have hword : ∀ w : UInt32, wordOfInt w.toInt32.toInt = w := fun w =>
    congrArg Int32.toUInt32 (Int32.ofInt_toInt w.toInt32)
  simp [CallConfig.args, plainConfig, hword, Function.comp_def, ← List.map_take]

/-- A request for a call of the module with the given reference, in its plainest form. -/
def Exchange.plain (ref : String) (w : Setting) (restore save : String) (t : Turn) : Exchange where
  turn := t
  setting := w
  request :=
    { version := protocolVersion
      method := "callModule"
      params := .array [.string ref, plainOptions t restore save] }
  args := [.string ref, plainOptions t restore save]
  config := plainConfig t restore save

theorem resolveModule_of_resolveName {s : Storage} {ref : String} (href : ref ≠ "")
    {record : ModuleRecord} (hname : s.resolveName ref = .ok record.id)
    (hrecord : s.moduleRecord record.id = .ok record) (rest : List JsonValue) :
    resolveModule s (.string ref :: rest) = .ok record := by
  have hword : wordArgument (.string ref :: rest) 0 "module" = .ok ref := by
    simp [wordArgument, textArgument, argument, JsonValue.readText?, href]
  have hid : resolveId s ref = .ok record.id := by
    rw [resolveId, hname]
  simp [resolveModule, hword, hid, hrecord, bind, Except.bind, pure, Except.pure]

/-- **Every call can be asked for**, by a plain request to a server with the instruction limit. -/
theorem Exchange.asks_plain {s : Storage} {record : ModuleRecord} {ref : String} (href : ref ≠ "")
    (hname : s.resolveName ref = .ok record.id) (hrecord : s.moduleRecord record.id = .ok record)
    {w : Setting} (houtput : w.config.maxOutput ≤ 0) {t : Turn}
    (hwaits : Waits (w.env.interruption w.canceled w.config.callTimeout) t.env.fuel)
    (hfuel : t.env.fuel ≤ w.env.fuel) (restore save : String) :
    (Exchange.plain ref w restore save t).Asks s record w.config.maxInstructions restore save where
  version := rfl
  method := rfl
  params := rfl
  options := by
    have hread : CallConfig.ofJson? (argument (Exchange.plain ref w restore save t).args 1)
        = some (plainConfig t restore save) := ofJson?_plainOptions t restore save
    rw [configArgument, hread]
    rfl
  resolves := resolveModule_of_resolveName href hname hrecord _
  command := congrArg Int32.toUInt32 (Int32.ofInt_toInt _)
  arguments := map_wordOfInt_args_plainConfig t restore save
  restore := rfl
  save := rfl
  limit := rfl
  output := houtput
  waits := by
    show Waits (w.env.interruption w.canceled
      ((plainConfig t restore save).timeout w.config.callTimeout)) t.env.fuel
    rw [timeout_of_timeoutMs rfl]
    exact hwaits
  fuel := hfuel

/-- How a server answers a call that went like a turn. -/
def summaryOf (t : Turn) (id : ModuleId) (save : String) : CallSummary where
  moduleId := id
  value := t.value
  instructions := t.instructions
  output := ⟨t.printed⟩
  truncated := false
  snapshot := save

/-- The response to the request of an exchange. -/
def Exchange.response (x : Exchange) (id : ModuleId) (save : String) : Response :=
  ⟨x.request.id, .ok (.called (summaryOf x.turn id save))⟩

/-- The requests of exchanges are answered one after another. -/
def answerEach [Zstd.Compressor] (s : Storage) : List Exchange → Option (Storage × List Response)
  | [] => some (s, [])
  | x :: xs => do
    let (s, response) ← answer x.setting s x.request
    let (s, responses) ← answerEach s xs
    return (s, response :: responses)

/-! ## One request -/

/-- A server has a module and keeps snapshots. -/
structure Keeps (s : Storage) (record : ModuleRecord) (mod : Module) : Prop extends s.Ready where
  /-- The image can be loaded. -/
  image : ∃ image, s.getModule record.id = .ok image ∧ Module.load mod.name image = .ok mod

section

variable {s : Storage} {record : ModuleRecord} {mod : Module} {limit : UInt64}
  {restore save label : String} {x : Exchange} {a : Arena} {m m' n : Machine}
  {out out' : OutputBuffer}

/-- What a request asks for does not depend on snapshots. -/
theorem Exchange.Asks.withSnapshots (h : x.Asks s record limit restore save)
    (snapshots : Option SnapshotStore) :
    x.Asks { s with snapshots } record limit restore save :=
  { h with resolves := h.resolves }

theorem ne_empty_of_isLabel (h : Snapshot.isLabel label = true) : label ≠ "" := by
  rintro rfl
  exact absurd h (by decide)

/-- What comes before a call: a fresh machine, whose arena may be restored. -/
theorem prepareCall_of_asks (hs : Keeps s record mod) (hasks : x.Asks s record limit restore save)
    (hargs : x.turn.args.length ≤ maxCallArgs)
    (hrestore : restoreSnapshot s record.id restore
      (Machine.create { mod with name := record.name } limit) = .ok n) :
    prepareCall x.setting.config s x.request.params = .ok ⟨record, x.config, n⟩ := by
  obtain ⟨store, hstore, -⟩ := hs.snapshots
  obtain ⟨image, himage, hload⟩ := hs.image
  have hcount : ¬maxCallArgs < x.config.args.length := by
    rw [← hasks.arguments, List.length_map] at hargs
    exact Nat.not_lt.mpr hargs
  have hfresh : Machine.load? true record.name image limit
      = .ok (.create { mod with name := record.name } limit) := by
    rw [Machine.load?, Module.load_rename hload]
    rfl
  simp [prepareCall, hasks.params, hasks.options, hcount, hstore, hasks.resolves, himage,
    hasks.limit, hfresh, hasks.restore, hrestore, bind, Except.bind, Except.mapError, pure,
    Except.pure]

/-- A fresh machine that is restored from a saved arena is idle with that arena. -/
theorem exists_restoreSnapshot {id : ModuleId} (hlabel : Snapshot.isLabel label = true)
    (mod : Module) (limit : UInt64) (hmask : a.mask = mod.arena.mask) {info : Snapshot.Info}
    (hsaved : s.loadSnapshot id label = .ok (a.bytes, info)) (name : String) :
    ∃ n, restoreSnapshot s id label (Machine.create { mod with name } limit) = .ok n ∧
      n.Idle mod limit a := by
  have harena : mod.arena.restore a.bytes = .ok a := by
    have hsize : a.bytes.size = mod.arena.bytes.size := by
      rw [a.size_bytes, mod.arena.size_bytes, hmask]
    obtain ⟨bytes, mask, isPowerOfTwo, size_bytes⟩ := a
    obtain rfl : mask = mod.arena.mask := hmask
    exact dif_pos hsize
  refine ⟨⟨some ⟨mod.program, a⟩, (Machine.create { mod with name } limit).status⟩, ?_,
    ⟨rfl, rfl⟩, rfl, rfl, rfl, rfl⟩
  rw [restoreSnapshot, if_neg (ne_empty_of_isLabel hlabel), hsaved]
  simp [Machine.restore, Machine.create, harena]

variable [Zstd.Compressor] [Zstd.LawfulCompressor]

/-- What comes after a call that went like a turn: the arena is saved. -/
theorem exists_finishCall (hs : Keeps s record mod) (now : Int) (hn : n.Idle mod limit a)
    (hmask : a.mask = mod.arena.mask) {config : CallConfig}
    (hlabel : Snapshot.isLabel config.save = true) (prepared : Machine) {t : Turn}
    (hinstructions : n.status.meter.used = t.instructions) (hprinted : out.bytes = t.printed)
    (htruncated : out.truncated = false) :
    ∃ store info, finishCall s now ⟨record, config, prepared⟩ n out ⟨t.value, none⟩
        = ({ s with snapshots := some store }, .ok (.called (summaryOf t record.id config.save))) ∧
      Keeps { s with snapshots := some store } record mod ∧
      Storage.loadSnapshot { s with snapshots := some store } record.id config.save
        = .ok (a.bytes, info) := by
  obtain ⟨image, himage, hmod⟩ := hs.image
  have hsize : a.bytes.size ≤ Zstd.maxWindow := by
    have hle := Module.size_arena_le hmod
    rw [mod.arena.size_bytes, ← hmask, ← a.size_bytes] at hle
    exact Nat.le_trans hle (by decide)
  obtain ⟨store, info, hsave, hready, hload⟩ :=
    hs.exists_saveSnapshot now record.id hlabel hsize
  have hsaved : saveArena s now record.id config.save n
      = ({ s with snapshots := some store }, .ok ()) := by
    rw [saveArena, if_neg (ne_empty_of_isLabel hlabel), Machine.snapshot, hn.loaded]
    dsimp only
    rw [hsave]
  refine ⟨store, info, ?_, ⟨hready, image, himage, hmod⟩, hload⟩
  simp only [finishCall, hsaved, summaryOf, hinstructions, hprinted, htruncated]

/-- **One request does what the call does** on a machine that is kept, if it starts from the arena
of that machine: it is answered with the result, the instructions and the output of the call, and
the arena that the call leaves behind is saved. -/
theorem Exchange.Asks.exists_answer (hasks : x.Asks s record limit restore save)
    (hs : Keeps s record mod) (hlabel : Snapshot.isLabel save = true)
    (hmask : a.mask = mod.arena.mask)
    (hrestore : restoreSnapshot s record.id restore
      (Machine.create { mod with name := record.name } limit) = .ok n)
    (hn : n.Idle mod limit a) (hm : m.Idle mod limit a) (hout : out.limit ≤ 0)
    (hturn : m.Takes out x.turn m' out') :
    ∃ store info a', answer x.setting s x.request
        = some ({ s with snapshots := some store }, x.response record.id save) ∧
      Keeps { s with snapshots := some store } record mod ∧
      Storage.loadSnapshot { s with snapshots := some store } record.id save
        = .ok (a'.bytes, info) ∧
      a'.mask = mod.arena.mask ∧ m'.Idle mod limit a' ∧ out'.limit ≤ 0 := by
  obtain rfl := hasks.save
  have hprepare := prepareCall_of_asks hs hasks (hm.length_args_le hturn.call) hrestore
  have hserver : ({ limit := x.setting.config.maxOutput } : OutputBuffer).limit ≤ 0 := hasks.output
  obtain ⟨hout', n', a', hcall, hinstructions, hmask', hm', hn'⟩ :=
    hturn.exists_callStandard hm hn hout hserver hasks.fuel hasks.waits
  have hprinted : (OutputBuffer.print { limit := x.setting.config.maxOutput } x.turn.printed).bytes
      = x.turn.printed := ByteArray.empty_append
  obtain ⟨store, info, hfinish, hkeeps, hsaved⟩ :=
    exists_finishCall hs x.setting.env.now hn' (hmask'.trans hmask) hlabel n hinstructions hprinted
      rfl
  have hinvocation : ∀ i,
      (PreparedCall.mk record x.config n).invocation i = x.turn.invocation i := by
    intro i
    rw [PreparedCall.invocation, hasks.command, hasks.arguments]
    rfl
  have hcalled : callModule x.setting.config x.setting.env x.setting.canceled s x.request.params
      = some ({ s with snapshots := some store },
        .ok (.called (summaryOf x.turn record.id x.config.save))) := by
    rw [callModule, hprepare]
    dsimp only
    rw [hinvocation, hcall]
    exact congrArg some hfinish
  refine ⟨store, info, a', ?_, hkeeps, hsaved, hmask'.trans hmask, hm', hout'⟩
  rw [answer, if_neg (not_not.mpr hasks.version), hasks.method]
  simp only [dispatch, hcalled, Exchange.response]

/-! ## Chains -/

/-- **Chained requests do what the calls do** on a machine that is kept, from a saved arena on. The
induction is over the requests: after each of them the saved arena is that of the machine. -/
theorem answerEach_chained (hs : Keeps s record mod) (hlabel : Snapshot.isLabel label = true)
    (hmask : a.mask = mod.arena.mask) {info : Snapshot.Info}
    (hsaved : s.loadSnapshot record.id label = .ok (a.bytes, info)) (hm : m.Idle mod limit a)
    (hout : out.limit ≤ 0) {xs : List Exchange}
    (hanswers : m.Answers out (xs.map Exchange.turn) m')
    (hasks : ∀ x ∈ xs, x.Asks s record limit label label) :
    ∃ s' info' a', answerEach s xs = some (s', xs.map fun x => x.response record.id label) ∧
      m'.Idle mod limit a' ∧ s'.loadSnapshot record.id label = .ok (a'.bytes, info') := by
  induction xs generalizing s a info m out with
  | nil =>
    cases hanswers
    exact ⟨s, info, a, rfl, hm, hsaved⟩
  | cons x xs ih =>
    cases hanswers with
    | cons hturn hrest =>
      obtain ⟨n, hrestore, hn⟩ := exists_restoreSnapshot hlabel mod limit hmask hsaved record.name
      obtain ⟨store, info, a', hanswer, hs, hsaved, hmask, hm', hout⟩ :=
        (hasks x List.mem_cons_self).exists_answer hs hlabel hmask hrestore hn hm hout hturn
      obtain ⟨s', info', a'', heach, hidle, hlast⟩ := ih hs hmask hsaved hm' hout hrest
        fun y hy => (hasks y (List.mem_cons_of_mem x hy)).withSnapshots _
      refine ⟨s', info', a'', ?_, hidle, hlast⟩
      rw [answerEach, hanswer]
      simp [heach]

end

/-- **Chained calls come to what they come to on one machine.** Let a machine, made from an image,
answer calls one after another, each with success and without the clock. Then a server that has the
image and keeps snapshots answers requests for these calls, each in a fresh machine and, the first
apart, from the arena that the one before saved under a label. It answers with the same results,
instructions and output, and what is saved under the label in the end is the arena of the one
machine. -/
theorem chained_calls_eq_one_machine [Zstd.Compressor] [Zstd.LawfulCompressor] {name : String}
    {image : ByteArray} {mod : Module} (hload : Module.load name image = .ok mod) {s : Storage}
    (hs : s.Ready) {record : ModuleRecord} (himage : s.getModule record.id = .ok image)
    {label : String} (hlabel : Snapshot.isLabel label = true) {limit : UInt64} {out : OutputBuffer}
    (hout : out.limit ≤ 0) {x : Exchange} {xs : List Exchange} {m : Machine}
    (hanswers : (Machine.create mod limit).Answers out ((x :: xs).map Exchange.turn) m)
    (hfirst : x.Asks s record limit "" label)
    (hothers : ∀ y ∈ xs, y.Asks s record limit label label) :
    ∃ s' saved info, answerEach s (x :: xs)
        = some (s', (x :: xs).map fun y => y.response record.id label) ∧
      m.snapshot = (m, .ok saved) ∧ s'.loadSnapshot record.id label = .ok (saved, info) := by
  have hkeeps : Keeps s record mod :=
    ⟨hs, image, himage, (Module.load_eq_ok_iff.mp hload).1 ▸ hload⟩
  cases hanswers with
  | cons hturn hrest =>
    obtain ⟨store, info, a, hanswer, hkeeps, hsaved, hmask, hm, hout⟩ :=
      hfirst.exists_answer hkeeps hlabel rfl rfl (Machine.idle_create mod limit record.name)
        (Machine.idle_create mod limit mod.name) hout hturn
    obtain ⟨s', info', a', heach, hidle, hlast⟩ :=
      answerEach_chained hkeeps hlabel hmask hsaved hm hout hrest
        fun y hy => (hothers y hy).withSnapshots _
    refine ⟨s', a'.bytes, info', ?_, ?_, hlast⟩
    · rw [answerEach, hanswer]
      simp [heach]
    · rw [Machine.snapshot, hidle.loaded]

end Rpc

/-! ### A sample -/

/-- Adds one to the first word of the arena, prints the text after it and returns the word. -/
def Program.tally : List Instruction :=
  [⟨.enter, 24⟩, ⟨.constant, 0⟩, ⟨.constant, 0⟩, ⟨.load4, 0⟩, ⟨.constant, 1⟩, ⟨.add, 0⟩,
   ⟨.store4, 0⟩, ⟨.constant, 4⟩, ⟨.arg, 8⟩, ⟨.constant, 0xFFFFFFFF⟩, ⟨.call, 0⟩, ⟨.pop, 0⟩,
   ⟨.constant, 0⟩, ⟨.load4, 0⟩, ⟨.leave, 24⟩]

/-- Its image, with eight bytes of data: a zero word and the text. -/
def Module.tallyImage : ByteArray :=
  let code := Program.tally.flatMap Instruction.bytes
  Header.encode ⟨Header.moduleMagic, 15, 32, Int32.ofNat code.length,
    32 + Int32.ofNat code.length, 8, 0, 120⟩ ++ ⟨code.toArray⟩ ++ ⟨#[0, 0, 0, 0]⟩ ++ "tick".toUTF8

/-- A call that finds the given number. -/
def Turn.tally (value : UInt32) : Turn where
  env := { fuel := 15 }
  command := 0
  args := []
  value := value
  instructions := 15
  printed := "tick".toUTF8

namespace Rpc

/-- A server that allows twenty instructions and half a minute for a call. -/
def Setting.tally : Setting where
  config := { maxInstructions := 20, maxOutput := 0 }
  env := { fuel := 100 }

/-- Two calls count to two, on one machine and on a server that is asked for the second from where
the first ended. -/
theorem chained_calls_eq_one_machine_tally :
    ∃ mod m modules record s' saved info, Module.load "tally" Module.tallyImage = .ok mod ∧
      (Machine.create mod 20).Answers { limit := 0 } [.tally 1, .tally 2] m ∧
      ({} : Storage).putModule 0 "tally" Module.tallyImage = .ok ({ modules }, record) ∧
      answerEach { modules } [.plain "tally" .tally "" "kept" (.tally 1),
          .plain "tally" .tally "kept" "kept" (.tally 2)]
        = some (s', [⟨.null, .ok (.called ⟨record.id, 1, 15, ⟨"tick".toUTF8⟩, false, "kept"⟩)⟩,
          ⟨.null, .ok (.called ⟨record.id, 2, 15, ⟨"tick".toUTF8⟩, false, "kept"⟩)⟩]) ∧
      m.snapshot = (m, .ok saved) ∧ s'.loadSnapshot record.id "kept" = .ok (saved, info) := by
  have hcounts : ((Module.load "tally" Module.tallyImage).toOption.bind fun mod =>
      (Machine.create mod 20).answers? 40 { limit := 0 } [.tally 1, .tally 2]).isSome = true := by
    decide +kernel
  cases hload : Module.load "tally" Module.tallyImage with
  | error e =>
    rw [hload] at hcounts
    contradiction
  | ok mod =>
    rw [hload] at hcounts
    obtain ⟨m, hm⟩ := Option.isSome_iff_exists.mp hcounts
    have hanswers : (Machine.create mod 20).Answers { limit := 0 }
        ([Exchange.plain "tally" .tally "" "kept" (.tally 1),
          .plain "tally" .tally "kept" "kept" (.tally 2)].map Exchange.turn) m :=
      Machine.answers_of_answers? hm
    obtain ⟨-, hparse, -⟩ := Module.load_eq_ok_iff.mp hload
    have htally : ModuleStore.checkName "tally" = .ok () := rfl
    obtain ⟨modules, record, hput, himage, hrecord, hname⟩ :=
      Storage.exists_putModule (s := {}) rfl rfl 0 htally hparse
    have hwaits : Waits (Setting.tally.env.interruption false Setting.tally.config.callTimeout)
        15 := by
      intro i _ n hpos hle hpoll
      rw [Activation.pollInterval] at hpoll
      omega
    have hasks : ∀ restore value, (Exchange.plain "tally" .tally restore "kept" (.tally value)).Asks
        { modules } record 20 restore "kept" := fun restore value =>
      Exchange.asks_plain (w := .tally) (t := .tally value) (by decide) hname hrecord (by decide)
        hwaits (show 15 ≤ 100 by decide) _ _
    obtain ⟨s', saved, info, hanswer, hsnapshot, hsaved⟩ :=
      chained_calls_eq_one_machine hload ⟨⟨{}, rfl, rfl⟩, rfl⟩ himage (by decide) (by decide)
        hanswers (hasks "" 1) (by simpa using hasks "kept" 2)
    exact ⟨mod, m, modules, record, s', saved, info, rfl, hanswers, hput, hanswer, hsnapshot,
      hsaved⟩

end Rpc

end BytecodeHost
