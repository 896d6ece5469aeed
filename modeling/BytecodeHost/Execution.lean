import BytecodeHost.Machine.Call
import BytecodeHost.Machine.Registry

/-!
# Running modules with the standard traps

What a module prints during a call is collected in a buffer that keeps at most a given number of
bytes. Everything else that a call takes from outside is an `Environment`.

## Main definitions

* `OutputBuffer.write`: adds printed bytes.
* `Machine.callStandard`: a call with the standard traps over a buffer.
-/

namespace BytecodeHost

/-- Printed output, cut off after `limit` bytes. A limit of zero or less keeps everything. -/
structure OutputBuffer where
  /-- How many bytes are kept. -/
  limit : Int
  /-- The bytes that were kept. -/
  bytes : ByteArray := .empty
  /-- Whether bytes were dropped. -/
  truncated : Bool := false
  deriving DecidableEq

namespace OutputBuffer

/-- Adds printed bytes and says how many were taken. Bytes past the limit are dropped and count as
taken, so printing never fails. -/
def write (b : OutputBuffer) (p : ByteArray) : OutputBuffer × Nat :=
  let room := b.limit - b.bytes.size
  if 0 < b.limit ∧ room < p.size then
    ({ b with bytes := b.bytes ++ p.extract 0 room.toNat, truncated := true }, p.size)
  else ({ b with bytes := b.bytes ++ p }, p.size)

/-- The writer of a host whose state is a buffer. -/
def writer : StandardTrap.Writer OutputBuffer := fun p => do
  HostM.modify fun b => (b.write p).1
  return .ok ()

end OutputBuffer

/-- What calls take from outside. -/
structure Environment where
  /-- The time, in nanoseconds. -/
  now : Int := 0
  /-- What the clock trap answers, in milliseconds. -/
  clock : Int64 := 0
  /-- How many nanoseconds an instruction takes. -/
  pace : Nat := 10
  /-- How many instructions a call may take before it is given up without a result. -/
  fuel : Nat

/-- When the caller of a call stops waiting: at once if the request was canceled, otherwise at its
deadline, if it has one. -/
def Environment.interruption (env : Environment) (canceled : Bool) (timeout : Int) :
    Option Interruption :=
  if canceled then some ⟨.canceled, 0⟩
  else if 0 < timeout then some ⟨.deadlineExceeded, timeout.toNat / env.pace⟩
  else none

/-- The standard traps over a buffer. -/
def standardRegistry (env : Environment) : Registry OutputBuffer :=
  .standard OutputBuffer.writer (pure env.clock)

/-- Calls a machine with the standard traps over a buffer. -/
def Machine.callStandard (env : Environment) (m : Machine) (out : OutputBuffer) (c : Invocation) :
    Option (Machine × OutputBuffer × CallResult) :=
  m.call (standardRegistry env).host env.fuel out c

end BytecodeHost
