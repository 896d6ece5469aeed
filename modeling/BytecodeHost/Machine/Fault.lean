import BytecodeHost.Arena
import BytecodeHost.Opcode

/-!
# Machine faults

Everything a machine reports to its host. A fault has a kind, a sentence that says what happened,
and, where another failure lies behind it, that failure's causes.
-/

namespace BytecodeHost

/-- Why a caller no longer waits for a call. -/
inductive Cancellation where
  /-- The caller gave up. -/
  | canceled
  /-- The caller's deadline passed. -/
  | deadlineExceeded
  deriving DecidableEq

namespace Cancellation

/-- The wording of a cancellation. -/
def message : Cancellation → String
  | canceled => "context canceled"
  | deadlineExceeded => "context deadline exceeded"

/-- The cause that a cancellation is. -/
def cause : Cancellation → Cause
  | canceled => .contextCanceled
  | deadlineExceeded => .deadlineExceeded

end Cancellation

/-- When and why a caller stops waiting for a call. -/
structure Interruption where
  /-- Why. -/
  reason : Cancellation
  /-- How many instructions run before. -/
  after : Nat := 0
  deriving DecidableEq

/-- Something a machine refuses or fails to do. -/
inductive Fault where
  /-- The program counter is outside the stream. -/
  | pcOutside (pc : UInt32) (length : Nat)
  /-- The instruction limit is used up. -/
  | budget (name : String) (used : UInt64)
  /-- The caller no longer waits. -/
  | canceled (reason : Cancellation)
  /-- A block copy leaves the arena. -/
  | blockCopy (e : Arena.Error)
  /-- A call names no instruction. -/
  | callTarget (target : UInt32) (count : Int32)
  /-- A return address is outside the stream. -/
  | returnTarget (pc : UInt32) (length : Nat)
  /-- A jump names no instruction. -/
  | jumpTarget (target : UInt32) (count : Int32)
  /-- An integer division by zero. -/
  | divisionByZero (op : Opcode) (pc : UInt32)
  /-- The byte at the program counter is not executable. -/
  | badInstruction (byte : UInt8) (pc : UInt32)
  /-- The outermost frame returned with unbalanced operands. -/
  | corruptStack (top : UInt8) (sentinel : UInt32)
  /-- The host refused a trap. -/
  | trap (number : UInt32) (reason : Failure)
  /-- The host gave up in the middle of a trap. -/
  | hostPanic (name : String) (message : String)
  /-- An access that no rule of the machine allows. -/
  | stuck (name : String)
  /-- The machine has been released. -/
  | unloaded (activity : String)
  /-- A call is in progress. -/
  | busy (activity : String) (level : Nat)
  /-- A range or a saved buffer does not fit the arena. -/
  | range (e : Arena.Error)
  /-- The null address was used as a pointer. -/
  | nullAddress
  /-- A heap without room. -/
  | heapLength (length : Int32)
  /-- No heap was set. -/
  | noHeap
  /-- A negative number of bytes was asked for. -/
  | negativeSize (size : Int32)
  /-- The heap has no room for a block. -/
  | heapFull (size : Int32) (used total : UInt32)
  deriving DecidableEq

namespace Fault

/-- The kind of a fault. -/
def kind : Fault → Kind
  | pcOutside .. => .pcOutOfRange
  | budget .. => .budgetExceeded
  | canceled _ => .canceled
  | blockCopy _ => .blockCopyRange
  | callTarget .. => .pcOutOfRange
  | returnTarget .. => .pcOutOfRange
  | jumpTarget .. => .pcOutOfRange
  | divisionByZero .. => .divisionByZero
  | badInstruction .. => .badInstruction
  | corruptStack .. => .stackCorruption
  | trap .. => .trapFailed
  | hostPanic .. => .trapFailed
  | stuck _ => .trapFailed
  | unloaded _ => .notLoaded
  | busy .. => .freeWhileRunning
  | range _ => .dataOutOfRange
  | nullAddress => .invalidPointer
  | heapLength _ => .dataOutOfRange
  | noHeap => .allocationFailed
  | negativeSize _ => .allocationFailed
  | heapFull .. => .allocationFailed

/-- What a fault says. -/
def detail : Fault → Text
  | pcOutside pc length => s!"pc {pc.toInt32.toInt} outside stream of {length} words"
  | budget name used => s!"{name} after {used.toNat} instructions"
  | canceled reason => reason.message
  | blockCopy e => e.toFailure.message
  | callTarget target count =>
    s!"call to instruction {target.toInt32.toInt} of {count.toInt}"
  | returnTarget pc length => s!"return to {pc.toInt32.toInt} outside stream of {length} words"
  | jumpTarget target count =>
    s!"jump to instruction {target.toInt32.toInt} of {count.toInt}"
  | divisionByZero op pc => s!"{op.name} at pc {pc.toInt32.toInt}"
  | badInstruction byte pc => s!"{mnemonic byte} at pc {pc.toInt32.toInt}"
  | corruptStack top sentinel =>
    (s!"operand stack offset {top.toNat}, sentinel 0x" ++ Text.hexInt sentinel.toInt32.toInt
      : String)
  | trap number reason => s!"trap {number.toInt32.toInt}: " ++ reason.message
  | hostPanic name message => s!"panic in {name}: {message}"
  | stuck name => s!"panic in {name}: access out of range"
  | unloaded activity => activity
  | busy activity level => s!"{activity} at call level {level}"
  | range e => e.toFailure.message
  | nullAddress => "null address"
  | heapLength length => s!"heap length {length.toInt}"
  | noHeap => "no heap configured"
  | negativeSize size => s!"malloc({size.toInt})"
  | heapFull size used total =>
    s!"malloc({size.toInt}): {used.toNat} of {total.toNat} heap bytes used"

/-- The causes behind a fault. -/
def reasons : Fault → List Cause
  | canceled reason => [reason.cause]
  | trap _ reason => reason.causes
  | _ => []

/-- The failure that a fault is. -/
def toFailure (f : Fault) : Failure where
  causes := .kind f.kind :: f.reasons
  message := (f.kind.text ++ ": " : String) ++ f.detail

end Fault

end BytecodeHost
