import BytecodeHost.Image.Load
import BytecodeHost.Machine.Fault
import BytecodeHost.Meter

/-!
# Machines

A machine holds one loaded module and the state of its calls. Its program stack lies at the top
of the arena and grows down. This module has everything a host may do with a machine except
calling it, which is in `BytecodeHost.Machine.Call`.

Every refusal is recorded as the machine's last error and reported as an event before it is
returned. Those of the meter are only returned.

## Main definitions

* `Machine.create`: a machine for a module; `Machine.load?` makes one from an image.
* `Machine.free`, `Machine.snapshot`, `Machine.restore`.
* `Machine.setHeap`, `Machine.malloc`: a bump allocator over a range of the arena.
* `Machine.validateRange`, `Machine.cString`, `Machine.translate`: addresses that modules pass.
* `Machine.resetMeter`, `Machine.chargeMeter`: the meter in the hands of the host.
-/

namespace BytecodeHost

/-- A failure report. -/
structure Event where
  /-- The kind of the failure. -/
  kind : Kind
  /-- What happened. -/
  detail : Text
  /-- Whether there was a machine to report about; creation has none. -/
  hasMachine : Bool
  deriving DecidableEq

/-- The range that allocations come from. No heap is set while `stop` is zero. -/
structure Heap where
  /-- Where the range starts. -/
  start : UInt32 := 0
  /-- The end of the last allocation. -/
  next : UInt32 := 0
  /-- Where the range ends. -/
  stop : UInt32 := 0
  deriving DecidableEq

/-- The bytes handed out, gaps between them included. -/
def Heap.used (h : Heap) : UInt32 :=
  h.next - h.start

/-- What a loaded machine runs on. -/
structure Loaded where
  /-- The instructions. -/
  program : Program
  /-- The data. -/
  arena : Arena

/-- The state of a machine apart from program and arena. -/
structure Status where
  /-- The module's name. -/
  name : String
  /-- The module's instruction count. -/
  instructionCount : Int32
  /-- Where the next frame goes. -/
  programStack : UInt32
  /-- The lowest address reserved for the program stack. -/
  stackBottom : UInt32
  /-- The meter of the current or last outermost call. -/
  meter : Meter
  /-- The allocation range. -/
  heap : Heap := {}
  /-- Whether an activation is in progress. -/
  running : Bool := false
  /-- How many calls are in progress. -/
  callLevel : Nat := 0
  /-- How many breakpoints were passed. -/
  breakCount : Nat := 0
  /-- The kind of the latest failure. -/
  lastError : Kind := .none
  /-- The failure reports, oldest first. -/
  events : Array Event := #[]

/-- The same state with another meter. -/
def Status.withMeter (s : Status) (μ : Meter) : Status :=
  { s with meter := μ }

/-- A machine; it has nothing loaded once it is released. -/
structure Machine where
  /-- Program and arena. -/
  loaded : Option Loaded
  /-- Everything else. -/
  status : Status

/-- The same machine with another meter. -/
def Machine.withMeter (m : Machine) (μ : Meter) : Machine :=
  { m with status := m.status.withMeter μ }

/-- Records a fault and reports it. The reports stand for a host that only takes them down: a host
that is notified could use the machine there and then, and such a host is not described. -/
def Status.fail (s : Status) (f : Fault) : Status :=
  { s with
    lastError := f.kind
    events := s.events.push ⟨f.kind, f.detail, true⟩ }

namespace Machine

/-- The program stack's share of the arena. -/
def stackSize : UInt32 := 0x10000

/-- A machine for a loaded module, with an instruction limit for each outermost call; zero is no
limit. -/
def create (m : Module) (limit : UInt64) : Machine where
  loaded := some ⟨m.program, m.arena⟩
  status :=
    { name := m.name
      instructionCount := m.header.instructionCount
      programStack := m.arena.size
      stackBottom := m.arena.size - stackSize
      meter := .new limit }

/-- A failure to make a machine, with the reports made about it. -/
structure CreateError where
  /-- What went wrong. -/
  failure : Failure
  /-- The reports. -/
  events : Array Event

/-- A failure that is reported as it is refused. -/
def CreateError.reported (kind : Kind) (detail : String) : CreateError :=
  ⟨.because kind detail, #[⟨kind, detail, false⟩]⟩

/-- A machine for a module that may be missing, with a host that may be missing. -/
def create? (hasHost : Bool) (m : Option Module) (limit : UInt64) : Except CreateError Machine :=
  if !hasHost then .error (.reported .noTrapCallback "no trap callback provided")
  else
    match m with
    | none => .error (.reported .invalidPointer "nil executable")
    | some m => .ok (create m limit)

/-- Loads an image and makes a machine for it. -/
def load? (hasHost : Bool) (name : String) (image : ByteArray) (limit : UInt64) :
    Except CreateError Machine :=
  if !hasHost then create? hasHost none limit
  else
    match Module.load name image with
    | .error e => .error ⟨e.toFailure, #[⟨e.kind, e.toFailure.message, false⟩]⟩
    | .ok m => create? hasHost (some m) limit

/-- The failure of an operation on a machine that does not exist. -/
def missing (activity : String) : Failure :=
  .because .invalidPointer (activity ++ " on nil vm" : String)

/-- Records a fault, reports it and refuses. -/
def refuse {α : Type} (m : Machine) (f : Fault) : Machine × Except Failure α :=
  ({ m with status := m.status.fail f }, .error f.toFailure)

/-- The mask of the arena, or zero once released. -/
def dataMask (m : Machine) : UInt32 :=
  match m.loaded with
  | some l => l.arena.mask
  | none => 0

/-- The arena's buffer, or `none` once released. -/
def memory? (m : Machine) : Option ByteArray :=
  m.loaded.map (·.arena.bytes)

/-- Releases program, arena and heap, unless a call is in progress. -/
def free (m : Machine) : Machine × Except Failure Unit :=
  if m.status.callLevel ≠ 0 then m.refuse (.busy "free" m.status.callLevel)
  else ({ loaded := none, status := { m.status with heap := {} } }, .ok ())

/-! ## Whole arenas -/

/-- A copy of the arena. -/
def snapshot (m : Machine) : Machine × Except Failure ByteArray :=
  match m.loaded with
  | none => m.refuse (.unloaded "snapshot of unloaded vm")
  | some l => (m, .ok l.arena.bytes)

/-- Replaces the arena by a copy taken earlier, unless a call is in progress. -/
def restore (m : Machine) (saved : ByteArray) : Machine × Except Failure Unit :=
  match m.loaded with
  | none => m.refuse (.unloaded "restore into unloaded vm")
  | some l =>
    if m.status.callLevel ≠ 0 then m.refuse (.busy "restore" m.status.callLevel)
    else
      match l.arena.restore saved with
      | .error e => m.refuse (.range e)
      | .ok arena => ({ m with loaded := some { l with arena } }, .ok ())

/-- Writes bytes at an offset of the buffer, past all checks; nothing once released. -/
def poke (m : Machine) (offset : Nat) (s : ByteArray) : Machine :=
  match m with
  | ⟨some ⟨program, arena⟩, status⟩ => ⟨some ⟨program, arena.write offset s⟩, status⟩
  | ⟨none, status⟩ => ⟨none, status⟩

/-! ## Addresses -/

/-- Checks that a range lies in the arena without masking and does not start at null. -/
def validateRange (m : Machine) (address length : UInt32) : Machine × Except Failure Unit :=
  match m.loaded with
  | none => m.refuse (.unloaded "validate on unloaded vm")
  | some l =>
    if address = 0 then m.refuse .nullAddress
    else
      match l.arena.validRange address length with
      | .error e => m.refuse (.range e)
      | .ok () => (m, .ok ())

/-- The bytes at a masked address up to the next zero byte. -/
def cString (m : Machine) (address : UInt32) : Machine × Except Failure ByteArray :=
  match m.loaded with
  | none => m.refuse (.unloaded "read on unloaded vm")
  | some l => (m, .ok (l.arena.cString address))

/-- The bytes from a masked address to the end of the arena; null has none. -/
def translate (m : Machine) (address : UInt32) : Machine × Except Failure (Option ByteArray) :=
  match m.loaded with
  | none => m.refuse (.unloaded "translate on unloaded vm")
  | some l => (m, .ok (if address = 0 then none else some (l.arena.slice address)))

/-! ## The heap -/

/-- Makes a range of the arena the one that allocations come from, and forgets earlier ones. -/
def setHeap (m : Machine) (start length : Int32) : Machine × Except Failure Unit :=
  match m.loaded with
  | none => m.refuse (.unloaded "heap on unloaded vm")
  | some _ =>
    if length ≤ 0 then m.refuse (.heapLength length)
    else
      match m.validateRange start.toUInt32 length.toUInt32 with
      | (m, .error e) => (m, .error e)
      | (m, .ok ()) =>
        let first := start.toUInt32
        let heap : Heap := ⟨first, first, first + length.toUInt32⟩
        ({ m with status := { m.status with heap } }, .ok ())

/-- The next address that is a multiple of four. -/
def align (address : UInt32) : UInt32 :=
  (address + 3) &&& ~~~3

/-- Hands out the next aligned block of the heap. -/
def malloc (m : Machine) (size : Int32) : Machine × Except Failure UInt32 :=
  let heap := m.status.heap
  if heap.stop = 0 then m.refuse .noHeap
  else if size < 0 then m.refuse (.negativeSize size)
  else
    let address := align heap.next
    if heap.stop.toNat < address.toNat + size.toUInt32.toNat then
      m.refuse (.heapFull size heap.used (heap.stop - heap.start))
    else
      let heap := { heap with next := address + size.toUInt32 }
      ({ m with status := { m.status with heap } }, .ok address)

/-! ## The meter -/

/-- Restores the full limit, also in the middle of a call. -/
def resetMeter (m : Machine) : Machine :=
  m.withMeter m.status.meter.reset

/-- Charges an amount in addition to what instructions are charged. -/
def chargeMeter (m : Machine) (n : UInt64) : Machine × Except Failure Unit :=
  let charge := m.status.meter.charge n
  (m.withMeter charge.1,
    if charge.2 then .ok () else .error (.ofCause .meterExhausted "instruction limit reached"))

end Machine

end BytecodeHost
