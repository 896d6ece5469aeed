import BytecodeHost.Machine.Basic

/-!
# Hosts

A module reaches its host through traps. While it handles a trap a host may use the machine that
raised it, and may call back into it, in which case the host's own traps can be entered again
before the outer one is answered.

A handler is therefore written as a `Script`: a tree of requests to the machine and to its meter,
each followed by what to do with the reply. How much a machine logs is not kept here. Apart from
that a handler has no other way to touch it, so what a machine guarantees about each request it
guarantees about every host.

The host's own state of type `σ` travels with the script. It is handed over at each call back,
because the traps of that call use and change it too.

## Main definitions

* `Request`, `Request.Reply`, `Request.perform`: what can be asked of a machine besides a call.
* `Script`: a trap handler's behaviour; a monad.
* `Host`: a handler for every trap.
-/

namespace BytecodeHost

/-! ## Requests -/

/-- What a trap handler can ask of the machine, calls apart. -/
inductive Request where
  /-- The machine as it is. -/
  | inspect
  /-- `Machine.free`. -/
  | free
  /-- `Machine.snapshot`. -/
  | snapshot
  /-- `Machine.restore`. -/
  | restore (saved : ByteArray)
  /-- `Machine.poke`. -/
  | poke (offset : Nat) (bytes : ByteArray)
  /-- `Machine.validateRange`. -/
  | validateRange (address length : UInt32)
  /-- `Machine.cString`. -/
  | cString (address : UInt32)
  /-- `Machine.translate`. -/
  | translate (address : UInt32)
  /-- `Machine.setHeap`. -/
  | setHeap (start length : Int32)
  /-- `Machine.malloc`. -/
  | malloc (size : Int32)
  /-- `Machine.resetMeter`. -/
  | resetMeter
  /-- `Machine.chargeMeter`. -/
  | chargeMeter (n : UInt64)

namespace Request

/-- What a request is answered with. -/
def Reply : Request → Type
  | inspect => Machine
  | free => Except Failure Unit
  | snapshot => Except Failure ByteArray
  | restore _ => Except Failure Unit
  | poke .. => Unit
  | validateRange .. => Except Failure Unit
  | cString _ => Except Failure ByteArray
  | translate _ => Except Failure (Option ByteArray)
  | setHeap .. => Except Failure Unit
  | malloc _ => Except Failure UInt32
  | resetMeter => Unit
  | chargeMeter _ => Except Failure Unit

/-- Carries out a request. -/
def perform (m : Machine) : (q : Request) → Machine × q.Reply
  | inspect => (m, m)
  | free => m.free
  | snapshot => m.snapshot
  | restore saved => m.restore saved
  | poke offset bytes => (m.poke offset bytes, ())
  | validateRange address length => m.validateRange address length
  | cString address => m.cString address
  | translate address => m.translate address
  | setHeap start length => m.setHeap start length
  | malloc size => m.malloc size
  | resetMeter => (m.resetMeter, ())
  | chargeMeter n => m.chargeMeter n

end Request

/-! ## Calls -/

/-- A call into a module. -/
structure Invocation where
  /-- The command word. -/
  command : UInt32
  /-- The arguments after it. -/
  args : List UInt32
  /-- When the caller stops waiting, if ever. -/
  interruption : Option Interruption := none

/-- How a call ended. The value of a failed call is minus one, or what was on top of unbalanced
operands. -/
structure CallResult where
  /-- The result word. -/
  value : UInt32
  /-- What went wrong. -/
  failure : Option Failure := none

/-! ## Scripts -/

/-- A trap handler's behaviour over a host state, ending with a value. -/
inductive Script (σ α : Type) where
  /-- Ends. -/
  | done (state : σ) (value : α)
  /-- Asks something of the machine. -/
  | ask (q : Request) (k : q.Reply → Script σ α)
  /-- Calls back into the machine. -/
  | call (state : σ) (c : Invocation) (k : σ → CallResult → Script σ α)

namespace Script

/-- Goes on with the end of a script. -/
def andThen {σ α β : Type} (f : σ → α → Script σ β) : Script σ α → Script σ β
  | done s a => f s a
  | ask q k => ask q fun r => andThen f (k r)
  | call s c k => call s c fun s' r => andThen f (k s' r)

/-- Runs a script on a machine. `callBack` makes calls and may give up, in which case there is no
result. -/
def run {σ α : Type} (callBack : Machine → σ → Invocation → Option (Machine × σ × CallResult)) :
    Script σ α → Machine → Option (Machine × σ × α)
  | done s a, m => some (m, s, a)
  | ask q k, m =>
    match q.perform m with
    | (m, r) => run callBack (k r) m
  | call s c k, m =>
    match callBack m s c with
    | some (m, s, r) => run callBack (k s r) m
    | none => none

end Script

/-- A script that still needs the host state. -/
def HostM (σ α : Type) : Type :=
  σ → Script σ α

namespace HostM

variable {σ α β : Type}

instance : Monad (HostM σ) where
  pure a := fun s => .done s a
  bind x f := fun s => (x s).andThen fun s a => f a s

/-- The host state. -/
def get : HostM σ σ :=
  fun s => .done s s

/-- Changes the host state. -/
def modify (f : σ → σ) : HostM σ Unit :=
  fun s => .done (f s) ()

/-- Asks something of the machine. -/
def ask (q : Request) : HostM σ q.Reply :=
  fun s => .ask q fun r => .done s r

/-- Calls back into the machine. -/
def call (c : Invocation) : HostM σ CallResult :=
  fun s => .call s c fun s r => .done s r

end HostM

/-- How a trap is answered. -/
inductive TrapReply where
  /-- A value, cut to a word for the module. -/
  | value (v : Int64)
  /-- A refusal. -/
  | refused (f : Failure)
  /-- The host gave up. -/
  | panicked (message : String)

/-- The words a trap hands over: its number and fifteen arguments. -/
def trapWords : Nat := 16

/-- A handler for every trap, over a host state. The words are the trap number and the
arguments. -/
def Host (σ : Type) : Type :=
  Array UInt32 → HostM σ TrapReply

end BytecodeHost
