import BytecodeHost.Failure
import BytecodeHost.Image.Header
import BytecodeHost.Opcode

/-!
# Assembling module images

An `Assembler` collects instructions and data placements and writes them as a module image.
Labels name instruction indices and may be referenced before they are placed; the last placement
of a label wins.

Segments lie in the order data, literals, bss, so placements have to come in that order too. The
first placement of any segment reserves one zero word at address 0, the address that hosts treat
as null.

## Main definitions

* `Directive`: one request to the assembler.
* `Assembler.emit`: carries out a directive and returns the address that a placement got.
* `Assembler.image`: the finished image, or the first label that was never placed.
-/

namespace BytecodeHost

/-- The bytes appended to the bss segment for the program stack. -/
def stackReserve : Int32 := 0x10000

/-- One request to the assembler. Opcodes are given by number, defined or not. -/
inductive Directive where
  /-- Places a label at the next instruction. -/
  | label (name : String)
  /-- An instruction without immediate. -/
  | op (opcode : UInt8)
  /-- An instruction followed by a four-byte immediate. -/
  | imm (opcode : UInt8) (value : Int32)
  /-- The argument instruction with its one-byte frame offset. -/
  | arg (offset : UInt8)
  /-- An instruction whose four-byte immediate is the index of a label. -/
  | branch (opcode : UInt8) (label : String)
  /-- Pushes the index of a label. -/
  | constLabel (label : String)
  /-- Pushes the call target of a host trap. -/
  | trap (number : Int32)
  /-- Places initialized words. -/
  | data (words : List Int32)
  /-- Places a literal and a terminating zero byte. -/
  | string (bytes : ByteArray)
  /-- Reserves zero bytes. -/
  | reserve (size : Int32)

/-- An instruction whose label, if it has one, is not yet resolved. -/
inductive Item where
  /-- An opcode alone. -/
  | plain (opcode : UInt8)
  /-- An opcode with a four-byte immediate. -/
  | word (opcode : UInt8) (value : UInt32)
  /-- An opcode with a one-byte immediate. -/
  | byte (opcode : UInt8) (value : UInt8)
  /-- An opcode with the index of a label as its four-byte immediate. -/
  | reference (opcode : UInt8) (label : String)
  deriving DecidableEq

/-- Placements that come in the wrong order. -/
inductive LayoutError where
  /-- Data words after a literal or a reservation. -/
  | dataAfterOthers
  /-- A literal after a reservation. -/
  | stringAfterReserve
  deriving DecidableEq

/-- The wording of a layout error. -/
def LayoutError.message : LayoutError → String
  | dataAfterOthers => "bytecode: Data after String or Reserve"
  | stringAfterReserve => "bytecode: String after Reserve"

/-- A module under construction. -/
structure Assembler where
  /-- The instructions so far. -/
  items : Array Item := #[]
  /-- Label placements, latest first. -/
  labels : List (String × Int32) := []
  /-- The data segment. -/
  data : ByteArray := .empty
  /-- The literal segment. -/
  lit : ByteArray := .empty
  /-- The size of the bss segment; additions wrap. -/
  bss : Int32 := 0

namespace Assembler

/-- How many instructions have been emitted. -/
def count (a : Assembler) : Int32 :=
  Int32.ofNat a.items.size

/-- Adds an instruction. -/
def push (a : Assembler) (i : Item) : Assembler :=
  { a with items := a.items.push i }

/-- Reserves the null word before the first placement. -/
def reserveNull (a : Assembler) : Assembler :=
  if a.data.size = 0 ∧ a.lit.size = 0 ∧ a.bss = 0 then { a with data := Bytes.zeros 4 } else a

/-- Carries out a directive. Placements return the address they got. -/
def emit (a : Assembler) : Directive → Except LayoutError (Assembler × Option Int32)
  | .label name => .ok ({ a with labels := (name, a.count) :: a.labels }, none)
  | .op opcode => .ok (a.push (.plain opcode), none)
  | .imm opcode value => .ok (a.push (.word opcode value.toUInt32), none)
  | .arg offset => .ok (a.push (.byte Opcode.arg.toByte offset), none)
  | .branch opcode label => .ok (a.push (.reference opcode label), none)
  | .constLabel label => .ok (a.push (.reference Opcode.constant.toByte label), none)
  | .trap number => .ok (a.push (.word Opcode.constant.toByte (-1 - number).toUInt32), none)
  | .data words =>
    if 0 < a.lit.size ∨ 0 < a.bss then .error .dataAfterOthers
    else
      let a := a.reserveNull
      let address := Int32.ofNat a.data.size
      .ok ({ a with data := words.foldl (fun d w => Bytes.pushWord d w.toUInt32) a.data },
        some address)
  | .string bytes =>
    if 0 < a.bss then .error .stringAfterReserve
    else
      let a := a.reserveNull
      let address := Int32.ofNat (a.data.size + a.lit.size)
      .ok ({ a with lit := (a.lit ++ bytes).push 0 }, some address)
  | .reserve size =>
    let a := a.reserveNull
    let address := Int32.ofNat (a.data.size + a.lit.size) + a.bss
    .ok ({ a with bss := a.bss + size }, some address)

/-- Carries out directives in order. -/
def emitAll (a : Assembler) : List Directive → Except LayoutError Assembler
  | [] => .ok a
  | d :: ds =>
    match a.emit d with
    | .ok (a', _) => a'.emitAll ds
    | .error e => .error e

/-- Where a label was last placed. -/
def position? (a : Assembler) (label : String) : Option Int32 :=
  a.labels.lookup label

/-- Appends the bytes of an instruction, or reports the label it lacks. -/
def encodeItem (a : Assembler) (code : ByteArray) : Item → Except String ByteArray
  | .plain opcode => .ok (code.push opcode)
  | .word opcode value => .ok (Bytes.pushWord (code.push opcode) value)
  | .byte opcode value => .ok ((code.push opcode).push value)
  | .reference opcode label =>
    match a.position? label with
    | some index => .ok (Bytes.pushWord (code.push opcode) index.toUInt32)
    | none => .error label

/-- The code section, or the first label that was never placed. -/
def code (a : Assembler) : Except String ByteArray :=
  a.items.foldl
    (fun acc item => match acc with
      | .ok code => a.encodeItem code item
      | .error label => .error label)
    (.ok .empty)

/-- The header of a module with `codeLength` bytes of code. -/
def header (a : Assembler) (codeLength : Int32) : Header where
  magic := Header.moduleMagic
  instructionCount := a.count
  codeOffset := Int32.ofNat Header.byteSize
  codeLength := codeLength
  dataOffset := Int32.ofNat Header.byteSize + codeLength
  dataLength := Int32.ofNat a.data.size
  litLength := Int32.ofNat a.lit.size
  bssLength := a.bss + stackReserve

/-- The finished image: header, code, data, literals. -/
def image (a : Assembler) : Except Failure ByteArray :=
  match a.code with
  | .ok code => .ok ((a.header (Int32.ofNat code.size)).encode ++ code ++ a.data ++ a.lit)
  | .error label => .error (.ofCause .undefinedLabel ("undefined label: " ++ label : String))

end Assembler

end BytecodeHost
