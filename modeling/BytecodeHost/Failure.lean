import BytecodeHost.Text

/-!
# Failures

A failure carries a message for people and the chain of causes that programs match on. Causes
are listed outermost first, depth first, so the failure's kind is the first kind in the list.

## Main definitions

* `Kind`: a machine failure kind, a number that is part of the host interface.
* `Cause`: what a failure can be matched against.
* `Failure.kindOf`: the kind a failure carries, `Kind.trapFailed` if it carries none.
-/

namespace BytecodeHost

/-! ## Kinds -/

/-- A machine failure kind. The numbers are stable. -/
structure Kind where
  /-- The number hosts see. -/
  code : Int32
  deriving DecidableEq

namespace Kind

/-- No failure. -/
def none : Kind := ⟨0⟩
/-- A null or missing object was used. -/
def invalidPointer : Kind := ⟨-1⟩
/-- The image is no module. -/
def invalidModule : Kind := ⟨-2⟩
/-- A machine was created without a host. -/
def noTrapCallback : Kind := ⟨-3⟩
/-- A running machine was to be released or overwritten. -/
def freeWhileRunning : Kind := ⟨-4⟩
/-- A block copy left the arena. -/
def blockCopyRange : Kind := ⟨-5⟩
/-- The program counter or a target left the program. -/
def pcOutOfRange : Kind := ⟨-6⟩
/-- A branch names no instruction. -/
def invalidJump : Kind := ⟨-7⟩
/-- The operand stack was unbalanced on return. -/
def stackCorruption : Kind := ⟨-8⟩
/-- Reserved. -/
def loadMisaligned : Kind := ⟨-10⟩
/-- Reserved. -/
def operandStack : Kind := ⟨-11⟩
/-- An address range left the arena. -/
def dataOutOfRange : Kind := ⟨-12⟩
/-- No memory could be handed out. -/
def allocationFailed : Kind := ⟨-13⟩
/-- An opcode is not executable. -/
def badInstruction : Kind := ⟨-14⟩
/-- The machine has been released. -/
def notLoaded : Kind := ⟨-15⟩
/-- An integer division or remainder by zero. -/
def divisionByZero : Kind := ⟨-16⟩
/-- The host refused a trap. -/
def trapFailed : Kind := ⟨-17⟩
/-- The instruction limit was reached. -/
def budgetExceeded : Kind := ⟨-18⟩
/-- The caller gave up. -/
def canceled : Kind := ⟨-19⟩

/-- The kinds that have a text of their own. -/
def texts : List (Kind × String) :=
  [(none, "no error"), (invalidPointer, "invalid pointer"), (invalidModule, "invalid module"),
   (noTrapCallback, "no trap callback"), (freeWhileRunning, "free while running"),
   (blockCopyRange, "block copy out of range"), (pcOutOfRange, "program counter out of range"),
   (invalidJump, "jump to invalid instruction"), (stackCorruption, "stack corruption"),
   (loadMisaligned, "load4 misaligned"), (operandStack, "operand stack error"),
   (dataOutOfRange, "data out of range"), (allocationFailed, "allocation failed"),
   (badInstruction, "bad instruction"), (notLoaded, "module not loaded"),
   (divisionByZero, "division by zero"), (trapFailed, "trap failed"),
   (budgetExceeded, "instruction budget exceeded"), (canceled, "call canceled")]

/-- The text of a kind; a number without a name is shown as such. -/
def text (k : Kind) : String :=
  match texts.find? (·.1 == k) with
  | some (_, s) => s
  | .none => s!"vm error {k.code.toInt}"

end Kind

/-! ## Causes -/

/-- What a failure can be matched against. -/
inductive Cause where
  /-- A machine failure kind. -/
  | kind (k : Kind)
  /-- A label is referenced and never placed. -/
  | undefinedLabel
  /-- A memory range lies outside its arena. -/
  | outOfRange
  /-- An arena size is no power of two. -/
  | sizeNotPowerOfTwo
  /-- A call has more arguments than a frame holds. -/
  | tooManyArguments
  /-- A meter has nothing left. -/
  | meterExhausted
  /-- No handler is registered for a trap. -/
  | unknownTrap
  /-- A module asked to be aborted. -/
  | moduleAbort
  /-- A memory operation is too long. -/
  | invalidLength
  /-- An identifier does not have its length. -/
  | invalidId
  /-- No module has the identifier. -/
  | moduleNotFound
  /-- No module has the name. -/
  | nameNotFound
  /-- The module store is closed. -/
  | moduleStoreClosed
  /-- A stored image does not read back. -/
  | corruptImage
  /-- No snapshot has the label. -/
  | snapshotNotFound
  /-- A file is no exported snapshot. -/
  | invalidFile
  /-- A label is empty or too long. -/
  | invalidLabel
  /-- Snapshot data does not match its digest. -/
  | corruptedData
  /-- Snapshot data does not decompress. -/
  | decompressionFailed
  /-- The snapshot store is closed. -/
  | snapshotStoreClosed
  /-- The caller's context was canceled. -/
  | contextCanceled
  /-- The caller's deadline passed. -/
  | deadlineExceeded
  deriving DecidableEq

/-- A message together with its causes, outermost first. -/
structure Failure where
  /-- What the failure can be matched against. -/
  causes : List Cause
  /-- What people read. -/
  message : Text
  deriving DecidableEq

namespace Failure

/-- A failure that only has a message. -/
def plain (message : Text) : Failure :=
  ⟨[], message⟩

/-- A failure of one cause. -/
def ofCause (cause : Cause) (message : Text) : Failure :=
  ⟨[cause], message⟩

/-- The failure that a kind is by itself. -/
def ofKind (k : Kind) : Failure :=
  ⟨[.kind k], k.text⟩

/-- A kind followed by what went wrong. -/
def because (k : Kind) (detail : Text) : Failure :=
  ⟨[.kind k], (k.text ++ ": " : String) ++ detail⟩

/-- Words put in front of a failure that stays matchable. -/
def within (context : String) (f : Failure) : Failure :=
  { f with message := (context ++ ": " : String) ++ f.message }

/-- Several failures at once, one line each. -/
def join (fs : List Failure) : Failure :=
  { causes := fs.flatMap (·.causes)
    message := match fs with
      | [] => ""
      | f :: rest => rest.foldl (fun t g => t ++ "\n" ++ g.message) f.message }

/-- Whether a failure has a cause. -/
def hasCause (f : Failure) (c : Cause) : Bool :=
  f.causes.contains c

/-- The first kind among the causes. -/
def kind? (f : Failure) : Option Kind :=
  f.causes.findSome? fun
    | .kind k => some k
    | _ => none

/-- The kind of an outcome: none for success, the failure's own kind, and a failed trap for a
failure that carries no kind. -/
def kindOf : Option Failure → Kind
  | none => Kind.none
  | some f => f.kind?.getD Kind.trapFailed

end Failure

end BytecodeHost
