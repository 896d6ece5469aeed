import BytecodeHost.Machine.Arithmetic
import BytecodeHost.Machine.Fault
import BytecodeHost.Machine.Operands
import BytecodeHost.Program

/-!
# One instruction

`step` executes the instruction at the program counter of an activation. It changes registers and
arena only; counting instructions, polling the caller and talking to the host are left to
`BytecodeHost.Machine.Call`.

Instructions fall into a few shapes, and `step` has one case for each. The opcode is the low byte
of the word at the program counter, so that a return address which a module has overwritten may
well point at an immediate; the zero word that ends the stream keeps the word after it readable.

## Main definitions

* `Registers`: program counter, frame pointer and operands.
* `Opcode.shape`: what kind of instruction an opcode is.
* `step`: the effect of one instruction.
-/

namespace BytecodeHost

/-- The registers of an activation. -/
structure Registers where
  /-- The place in the stream. -/
  pc : UInt32
  /-- The address of the current frame. -/
  frame : UInt32
  /-- The operands. -/
  operands : Operands

/-- What kind of instruction an opcode is. -/
inductive Shape where
  | invalid
  | ignore
  | breakpoint
  | constant
  | frameAddress
  | load1
  | load2
  | load4
  | store1
  | store2
  | store4
  | argument
  | blockCopy
  | call
  | push
  | pop
  | enter
  | leave
  | jump
  | branch
  | unary
  | binary
  | divide
  deriving DecidableEq

namespace Opcode

/-- The shape of an opcode. -/
def shape : Opcode → Shape
  | undef => .invalid
  | ignore => .ignore
  | breakpoint => .breakpoint
  | enter => .enter
  | leave => .leave
  | call => .call
  | push => .push
  | pop => .pop
  | constant => .constant
  | frameAddress => .frameAddress
  | jump => .jump
  | eq | ne | lti | lei | gti | gei | ltu | leu | gtu | geu
  | eqf | nef | ltf | lef | gtf | gef => .branch
  | load1 => .load1
  | load2 => .load2
  | load4 => .load4
  | store1 => .store1
  | store2 => .store2
  | store4 => .store4
  | arg => .argument
  | blockCopy => .blockCopy
  | signExtend8 | signExtend16 | negi | bcom | negf | intToFloat | floatToInt => .unary
  | divi | divu | modi | modu => .divide
  | add | sub | muli | mulu | band | bor | bxor | lsh | rshi | rshu
  | addf | subf | divf | mulf => .binary

end Opcode

/-- What an instruction does. Every effect carries the arena, which a failing instruction may have
written to as well. -/
inductive Effect where
  /-- The activation goes on. -/
  | next (r : Registers) (a : Arena)
  /-- A breakpoint was passed. -/
  | broke (r : Registers) (a : Arena)
  /-- The host is called; frame word 1 holds the trap number and frame word 0 the return place. -/
  | trap (r : Registers) (a : Arena)
  /-- The outermost frame returned. -/
  | finish (operands : Operands) (a : Arena)
  /-- The instruction failed. -/
  | fault (f : Fault) (a : Arena)
  /-- The instruction needs a word that is not there. -/
  | stuck (a : Arena)

/-- The return word of the outermost frame. -/
def returnMarker : UInt32 := 0xFFFFFFFF

/-- The effect of an instruction with an immediate, which is the word at `pc`. -/
@[inline] def withImmediate (p : Program) (pc : UInt32) (a : Arena)
    (k : UInt32 → Arena → Effect) : Effect :=
  match p.code[pc.toNat]? with
  | some w => k w a
  | none => .stuck a

/-- Moves the activation to an instruction index that is known to be below the count. -/
@[inline] def toInstruction (p : Program) (index : UInt32) (frame : UInt32) (operands : Operands)
    (a : Arena) : Effect :=
  match p.offsets[index.toNat]? with
  | some pc => .next ⟨pc, frame, operands⟩ a
  | none => .stuck a

/-- Executes the instruction `op` whose opcode word stands just before `pc`. -/
def execute (p : Program) (count : Int32) (op : Opcode) (pc frame : UInt32) (s : Operands)
    (a : Arena) : Effect :=
  let r₀ := s.first
  let r₁ := s.second
  match op.shape with
  | .invalid => .fault (.badInstruction op.toByte (pc - 1)) a
  | .ignore => .next ⟨pc, frame, s⟩ a
  | .breakpoint => .broke ⟨pc, frame, s⟩ a
  | .constant => withImmediate p pc a fun w a => .next ⟨pc + 1, frame, s.push w⟩ a
  | .frameAddress =>
    withImmediate p pc a fun w a => .next ⟨pc + 1, frame, s.push (w + frame)⟩ a
  | .load1 => .next ⟨pc, frame, s.setFirst (a.load1 r₀).toUInt32⟩ a
  | .load2 => .next ⟨pc, frame, s.setFirst (a.load2 r₀).toUInt32⟩ a
  | .load4 => .next ⟨pc, frame, s.setFirst (a.load4 r₀)⟩ a
  | .store1 => .next ⟨pc, frame, s.drop 2⟩ (a.store1 r₁ r₀.toUInt8)
  | .store2 => .next ⟨pc, frame, s.drop 2⟩ (a.store2 r₁ r₀.toUInt16)
  | .store4 => .next ⟨pc, frame, s.drop 2⟩ (a.store4 r₁ r₀)
  | .argument =>
    withImmediate p pc a fun w a =>
      .next ⟨pc + 1, frame, s.drop 1⟩ (a.store4 (w + frame) r₀)
  | .blockCopy =>
    withImmediate p pc a fun w a =>
      if a.inRange r₁ w && a.inRange r₀ w then
        .next ⟨pc + 1, frame, s.drop 2⟩ (a.moveBytes r₁ r₀ w)
      else .fault (.blockCopy (.copy r₁ r₀ w)) a
  | .call =>
    let a := a.store4 frame pc
    if r₀.toInt32 < 0 then
      .trap ⟨pc, frame, s.drop 1⟩ (a.store4 (frame + 4) (returnMarker - r₀))
    else if count.toUInt32 ≤ r₀ then .fault (.callTarget r₀ count) a
    else toInstruction p r₀ frame (s.drop 1) a
  | .push => .next ⟨pc, frame, s.raise⟩ a
  | .pop => .next ⟨pc, frame, s.drop 1⟩ a
  | .enter => withImmediate p pc a fun w a => .next ⟨pc + 1, frame - w, s⟩ a
  | .leave =>
    withImmediate p pc a fun w a =>
      let frame := frame + w
      let back := a.load4 frame
      if back = returnMarker then .finish s a
      else if back.toNat < p.code.size then .next ⟨back, frame, s⟩ a
      else .fault (.returnTarget back p.code.size) a
  | .jump =>
    if count.toUInt32 ≤ r₀ then .fault (.jumpTarget r₀ count) a
    else toInstruction p r₀ frame (s.drop 1) a
  | .branch =>
    if op.holds r₁ r₀ then
      withImmediate p pc a fun w a => .next ⟨w, frame, s.drop 2⟩ a
    else .next ⟨pc + 1, frame, s.drop 2⟩ a
  | .unary => .next ⟨pc, frame, s.setFirst (op.unary r₀)⟩ a
  | .binary => .next ⟨pc, frame, (s.drop 1).setFirst (op.binary r₁ r₀)⟩ a
  | .divide =>
    if r₀ = 0 then .fault (.divisionByZero op (pc - 1)) a
    else .next ⟨pc, frame, (s.drop 1).setFirst (op.divide r₁ r₀)⟩ a

/-- Executes the instruction at the program counter. -/
def step (p : Program) (count : Int32) (r : Registers) (a : Arena) : Effect :=
  match p.code[r.pc.toNat]? with
  | none => .stuck a
  | some word =>
    match Opcode.ofByte? word.toUInt8 with
    | none => .fault (.badInstruction word.toUInt8 r.pc) a
    | some op => execute p count op (r.pc + 1) r.frame r.operands a

end BytecodeHost
