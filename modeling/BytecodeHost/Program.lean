import BytecodeHost.Failure
import BytecodeHost.Opcode

/-!
# Prepared programs

On disk an instruction is an opcode byte and an immediate of zero, one or four bytes. The machine
runs a stream of words instead: one word for each opcode and one for each immediate. Preparing a
program decodes the instructions of a code section and then links them: `offsets` maps an
instruction index to its place in the stream, and a branch immediate is replaced by the place of
the instruction that it names.

The stream ends with one zero word, so that the word after any opcode that has an immediate
exists.

## Main definitions

* `Instruction.decodeAll`: the instructions of a code section.
* `Program.link?`: the word stream of a list of instructions, or the first branch that names no
  instruction.
-/

namespace BytecodeHost

/-- A decoded instruction. The operand is zero for an opcode without immediate. -/
structure Instruction where
  /-- What to do. -/
  op : Opcode
  /-- The immediate. -/
  operand : UInt32 := 0
  deriving DecidableEq

/-- Why a code section is refused. -/
inductive CodeError where
  /-- An instruction starts at or past the end of the section. -/
  | startsPast (index length : Nat)
  /-- A byte is no opcode. -/
  | badOpcode (byte : UInt8) (offset : Nat)
  /-- The section ends inside an immediate. -/
  | cutImmediate (op : Opcode) (offset length : Nat)
  /-- A branch names no instruction. -/
  | badTarget (op : Opcode) (index : Nat) (target : Int32)
  deriving DecidableEq

namespace CodeError

/-- The kind of a code error. -/
def kind : CodeError → Kind
  | startsPast .. => .pcOutOfRange
  | badOpcode .. => .badInstruction
  | cutImmediate .. => .pcOutOfRange
  | badTarget .. => .invalidJump

/-- What a code error says. -/
def detail : CodeError → String
  | startsPast index length => s!"instruction {index} starts past code length {length}"
  | badOpcode byte offset => s!"opcode {byte.toNat} at byte {offset}"
  | cutImmediate op offset length =>
    s!"{op.name} immediate at byte {offset} past code length {length}"
  | badTarget op index target => s!"{op.name} at instruction {index} targets {target.toInt}"

/-- The failure that a code error is. -/
def toFailure (e : CodeError) : Failure :=
  .because e.kind e.detail

end CodeError

namespace Instruction

/-- How many words of the stream an instruction takes. -/
def width (i : Instruction) : Nat :=
  if i.op.hasImmediate then 2 else 1

/-- How many bytes an instruction takes on disk. -/
def byteWidth (i : Instruction) : Nat :=
  1 + i.op.immediateWidth

/-- The immediate of an opcode at a byte offset. -/
def operandAt (src : ByteArray) (op : Opcode) (offset : Nat) : UInt32 :=
  match op.immediateWidth with
  | 0 => 0
  | 1 => (Bytes.byteAt src offset).toUInt32
  | _ => Bytes.wordAt src offset

/-- The instruction with a given index that starts at a byte offset. -/
def decodeAt (src : ByteArray) (index offset : Nat) : Except CodeError Instruction :=
  if src.size ≤ offset then .error (.startsPast index src.size)
  else
    let byte := Bytes.byteAt src offset
    match Opcode.ofByte? byte with
    | none => .error (.badOpcode byte offset)
    | some op =>
      if src.size < offset + 1 + op.immediateWidth then
        .error (.cutImmediate op (offset + 1) src.size)
      else .ok { op, operand := operandAt src op (offset + 1) }

/-- Decodes `remaining` more instructions from a byte offset on. -/
def decodeFrom (src : ByteArray) : (remaining offset : Nat) → Array Instruction →
    Except CodeError (Array Instruction)
  | 0, _, done => .ok done
  | remaining + 1, offset, done =>
    match decodeAt src done.size offset with
    | .error e => .error e
    | .ok i => decodeFrom src remaining (offset + i.byteWidth) (done.push i)

/-- The first `count` instructions of a code section. -/
def decodeAll (src : ByteArray) (count : Nat) : Except CodeError (Array Instruction) :=
  decodeFrom src count 0 #[]

end Instruction

/-- A linked program. -/
structure Program where
  /-- The stream: opcodes and immediates, then one zero word. -/
  code : Array UInt32
  /-- The place of each instruction in the stream, and the end of the stream. -/
  offsets : Array UInt32
  deriving DecidableEq

namespace Program

/-- The place of each instruction, and the end of the stream. -/
def offsetsOf (instructions : Array Instruction) : Array UInt32 :=
  instructions.foldl (fun table i => table.push (table.back?.getD 0 + UInt32.ofNat i.width)) #[0]

/-- The operand of instruction `index` as it stands in the stream. -/
def linkOperand (offsets : Array UInt32) (count index : Nat) (i : Instruction) :
    Except CodeError UInt32 :=
  if i.op.isBranch then
    let target := i.operand.toInt32
    if target < 0 ∨ (count : Int) < target.toInt then .error (.badTarget i.op index target)
    else .ok (offsets.getD i.operand.toNat 0)
  else .ok i.operand

/-- Appends the words of instructions to a stream, the first of them having index `index`. -/
def linkFrom (offsets : Array UInt32) (count : Nat) : List Instruction → (index : Nat) →
    Array UInt32 → Except CodeError (Array UInt32)
  | [], _, code => .ok code
  | i :: rest, index, code =>
    match linkOperand offsets count index i with
    | .error e => .error e
    | .ok operand =>
      let code := code.push i.op.toByte.toUInt32
      linkFrom offsets count rest (index + 1)
        (if i.op.hasImmediate then code.push operand else code)

/-- The program of a list of instructions. -/
def link? (instructions : Array Instruction) : Except CodeError Program :=
  let offsets := offsetsOf instructions
  match linkFrom offsets instructions.size instructions.toList 0 #[] with
  | .error e => .error e
  | .ok code => .ok { code := code.push 0, offsets }

/-- The program of the first `count` instructions of a code section. -/
def prepare (src : ByteArray) (count : Nat) : Except CodeError Program :=
  match Instruction.decodeAll src count with
  | .error e => .error e
  | .ok instructions => link? instructions

end Program

end BytecodeHost
