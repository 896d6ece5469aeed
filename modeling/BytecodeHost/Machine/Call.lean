import BytecodeHost.Machine.Host
import BytecodeHost.Machine.Step

/-!
# Calls

A call writes a frame at the top of the program stack, executes instructions until the outermost
frame returns, and puts the machine's call state back as it was, whatever happened.

The frame has fifteen words: the return marker, a zero word, the command and twelve arguments.
Before each instruction the program counter is checked, one unit is charged to the meter and, at
every 4096th instruction of the activation, the caller is polled.

Execution is bounded by fuel, one unit for each instruction of any nesting level. Running out of
fuel is no outcome of a call: there is then no result at all, and more fuel never changes a result
that is there.

## Main definitions

* `Activation.run`: executes instructions.
* `Machine.enter`: a call at any level, over a way to run activations.
* `Machine.call`: a call.
-/

namespace BytecodeHost

/-! ## Frames -/

/-- The arguments a call has room for. -/
def maxCallArgs : Nat := 12

/-- The bytes of the frame of a call. -/
def callFrameSize : UInt32 := 60

/-- Writes words to consecutive addresses. -/
def Arena.storeWords (a : Arena) (address : UInt32) : List UInt32 → Arena
  | [] => a
  | w :: ws => storeWords (a.store4 address w) (address + 4) ws

/-- The words from an address on. -/
def Arena.loadWords (a : Arena) (address : UInt32) : Nat → Array UInt32 → Array UInt32
  | 0, ws => ws
  | n + 1, ws => loadWords a (address + 4) n (ws.push (a.load4 address))

/-- The words of a call: the command, then the arguments, missing ones zero. -/
def Invocation.words (c : Invocation) : List UInt32 :=
  c.command :: c.args ++ List.replicate (maxCallArgs - c.args.length) 0

/-- Writes the frame of a call at an address. -/
def Arena.pushFrame (a : Arena) (frame : UInt32) (c : Invocation) : Arena :=
  ((a.storeWords (frame + 8) c.words).store4 (frame + 4) 0).store4 frame returnMarker

/-! ## Activations -/

/-- A machine that is executing, taken apart so that its arena can be written in place. -/
structure Activation where
  /-- The instructions. -/
  program : Program
  /-- The data. -/
  arena : Arena
  /-- The machine's other state. -/
  status : Status
  /-- The registers. -/
  registers : Registers
  /-- How many instructions were charged. -/
  executed : Nat

/-- How an activation ended: a machine and either the result word or a fault with the word that
goes with it. -/
structure Ended (σ : Type) where
  /-- The machine afterwards. -/
  machine : Machine
  /-- The host state afterwards. -/
  host : σ
  /-- The result word. -/
  value : UInt32
  /-- What went wrong. -/
  fault : Option Fault

namespace Activation

/-- Instructions between two polls of the caller. -/
def pollInterval : Nat := 4096

/-- The machine that is executing. -/
def machine (x : Activation) : Machine :=
  ⟨some ⟨x.program, x.arena⟩, x.status⟩

/-- The accounting before an instruction: the program counter lies in the stream, the meter grants
a unit, and the caller still waits. -/
def account (x : Activation) (interruption : Option Interruption) : Activation × Option Fault :=
  if x.program.code.size ≤ x.registers.pc.toNat then
    (x, some (.pcOutside x.registers.pc x.program.code.size))
  else
    match x.status.meter.charge 1 with
    | (meter, granted) =>
      let x := { x with status := { x.status with meter } }
      if granted then
        let x := { x with executed := x.executed + 1 }
        match interruption with
        | some i =>
          if x.executed % pollInterval = 0 ∧ i.after ≤ x.executed then
            (x, some (.canceled i.reason))
          else (x, none)
        | none => (x, none)
      else (x, some (.budget x.status.name meter.used))

/-- An activation that ends with a fault. -/
def fail {σ : Type} (x : Activation) (s : σ) (f : Fault) : Ended σ :=
  ⟨x.machine, s, returnMarker, some f⟩

/-- An activation whose outermost frame returned. -/
def finish {σ : Type} (x : Activation) (s : σ) (operands : Operands) : Ended σ :=
  if operands.balanced then ⟨x.machine, s, operands.first, none⟩
  else ⟨x.machine, s, operands.first, some (.corruptStack operands.top (operands.slot 0))⟩

/-- Takes up an activation after a trap was answered with a value: the value is pushed, and
execution goes on where the frame says. -/
def resume (frame : UInt32) (operands : Operands) (executed : Nat) (v : Int64) (l : Loaded)
    (status : Status) : Activation :=
  { program := l.program
    arena := l.arena
    status
    registers := ⟨l.arena.load4 frame, frame, operands.push v.toInt32.toUInt32⟩
    executed }

end Activation

/-! ## Calls at any level -/

/-- How an activation is run, with or without a result. -/
abbrev Runner (σ : Type) : Type :=
  Option Interruption → Activation → σ → Option (Ended σ)

namespace Machine

/-- The failure of a call with too many arguments. -/
def tooManyArguments (n : Nat) : Failure :=
  .ofCause .tooManyArguments s!"too many call arguments: {n} > {maxCallArgs}"

/-- The state in which a call leaves a machine: what the call changed, one call level down, with the
running flag and the program stack from before. -/
def leave (before : Status) (m : Machine) : Machine :=
  { m with
    status :=
      { m.status with
        callLevel := m.status.callLevel - 1
        running := before.running
        programStack := before.programStack } }

/-- The state of a machine inside a call. -/
def entered (s : Status) : Status :=
  { s with
    meter := if s.callLevel = 0 then s.meter.reset else s.meter
    callLevel := s.callLevel + 1
    running := true }

/-- Makes a call, given a way to run activations. -/
def enter {σ : Type} (run : Runner σ) (m : Machine) (s : σ) (c : Invocation) :
    Option (Machine × σ × CallResult) :=
  match m with
  | ⟨none, status⟩ =>
    let f := Fault.unloaded "vm not loaded"
    some (⟨none, status.fail f⟩, s, ⟨returnMarker, some f.toFailure⟩)
  | ⟨some ⟨program, arena⟩, status⟩ =>
    if maxCallArgs < c.args.length then
      some (⟨some ⟨program, arena⟩, status⟩, s,
        ⟨returnMarker, some (tooManyArguments c.args.length)⟩)
    else
      let frame := status.programStack - callFrameSize
      let x : Activation :=
        { program
          arena := arena.pushFrame frame c
          status := entered status
          registers := ⟨0, frame, .initial⟩
          executed := 0 }
      match run c.interruption x s with
      | none => none
      | some ⟨m, s, value, none⟩ => some (leave status m, s, ⟨value, none⟩)
      | some ⟨m, s, value, some f⟩ =>
        let m := leave status { m with status := m.status.fail f }
        some (m, s, ⟨value, some f.toFailure⟩)

end Machine

/-! ## Execution -/

/-- The trap number that the last word of a call instruction stands for. -/
def trapNumber (words : Array UInt32) : UInt32 :=
  words.getD 0 0

/-- Executes instructions until the activation ends. -/
def Activation.run {σ : Type} (host : Host σ) : Nat → Runner σ
  | 0, _, _, _ => none
  | fuel + 1, interruption, x, s =>
    match x.account interruption with
    | (x, some f) => some (x.fail s f)
    | (⟨program, arena, status, registers, executed⟩, none) =>
      match step program status.instructionCount registers arena with
      | .next registers arena =>
        run host fuel interruption ⟨program, arena, status, registers, executed⟩ s
      | .broke registers arena =>
        let status := { status with breakCount := status.breakCount + 1 }
        run host fuel interruption ⟨program, arena, status, registers, executed⟩ s
      | .finish operands arena =>
        some (Activation.finish ⟨program, arena, status, registers, executed⟩ s operands)
      | .fault f arena => some (fail ⟨program, arena, status, registers, executed⟩ s f)
      | .stuck arena =>
        some (fail ⟨program, arena, status, registers, executed⟩ s (.stuck status.name))
      | .trap ⟨_, frame, operands⟩ arena =>
        let words := arena.loadWords (frame + 4) trapWords #[]
        let status := { status with programStack := frame - 4 }
        match (host words s).run (Machine.enter (run host fuel))
            ⟨some ⟨program, arena⟩, status⟩ with
        | none => none
        | some (m, s, .refused f) => some ⟨m, s, returnMarker, some (.trap (trapNumber words) f)⟩
        | some (m, s, .panicked message) =>
          some ⟨m, s, returnMarker, some (.hostPanic m.status.name message)⟩
        | some (⟨some l, status⟩, s, .value v) =>
          run host fuel interruption (resume frame operands executed v l status) s
        | some (⟨none, status⟩, s, .value _) =>
          some ⟨⟨none, status⟩, s, returnMarker, some (.stuck status.name)⟩

namespace Machine

/-- Calls a machine with a host. There is no result if the fuel does not suffice. -/
def call {σ : Type} (host : Host σ) (fuel : Nat) (m : Machine) (s : σ) (c : Invocation) :
    Option (Machine × σ × CallResult) :=
  enter (Activation.run host fuel) m s c

end Machine

end BytecodeHost
