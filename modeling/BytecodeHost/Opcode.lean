/-!
# The instruction set

Sixty one-byte opcodes. An opcode may be followed by an immediate of one or four bytes; a
conditional branch has a four-byte immediate that names an instruction.

## Main definitions

* `Opcode`, numbered in the order of its constructors by `Opcode.toByte`.
* `Opcode.ofByte?`: the opcode of a byte, if there is one.
* `Opcode.immediateWidth`, `Opcode.isBranch`.
* `mnemonic`: the name of any byte, defined opcode or not.
-/

namespace BytecodeHost

/-- The instructions of the machine, in numbering order. -/
inductive Opcode where
  | undef
  | ignore
  | breakpoint
  | enter
  | leave
  | call
  | push
  | pop
  | constant
  | frameAddress
  | jump
  | eq
  | ne
  | lti
  | lei
  | gti
  | gei
  | ltu
  | leu
  | gtu
  | geu
  | eqf
  | nef
  | ltf
  | lef
  | gtf
  | gef
  | load1
  | load2
  | load4
  | store1
  | store2
  | store4
  | arg
  | blockCopy
  | signExtend8
  | signExtend16
  | negi
  | add
  | sub
  | divi
  | divu
  | modi
  | modu
  | muli
  | mulu
  | band
  | bor
  | bxor
  | bcom
  | lsh
  | rshi
  | rshu
  | negf
  | addf
  | subf
  | divf
  | mulf
  | intToFloat
  | floatToInt
  deriving DecidableEq

namespace Opcode

/-- How many opcodes there are. -/
def count : Nat := 60

/-- Every opcode, each at the index that is its number. -/
def all : Array Opcode :=
  #[undef, ignore, breakpoint, enter, leave, call, push, pop, constant, frameAddress, jump,
    eq, ne, lti, lei, gti, gei, ltu, leu, gtu, geu, eqf, nef, ltf, lef, gtf, gef,
    load1, load2, load4, store1, store2, store4, arg, blockCopy, signExtend8, signExtend16,
    negi, add, sub, divi, divu, modi, modu, muli, mulu, band, bor, bxor, bcom,
    lsh, rshi, rshu, negf, addf, subf, divf, mulf, intToFloat, floatToInt]

/-- The number of an opcode. -/
def toByte (op : Opcode) : UInt8 :=
  op.ctorIdx.toUInt8

/-- The opcode with a number. -/
def ofByte? (b : UInt8) : Option Opcode :=
  all[b.toNat]?

theorem ofByte?_toByte (op : Opcode) : ofByte? op.toByte = some op := by
  cases op <;> rfl

/-- The assembler name of an opcode. -/
def name : Opcode → String
  | undef => "UNDEF"
  | ignore => "IGNORE"
  | breakpoint => "BREAK"
  | enter => "ENTER"
  | leave => "LEAVE"
  | call => "CALL"
  | push => "PUSH"
  | pop => "POP"
  | constant => "CONST"
  | frameAddress => "LOCAL"
  | jump => "JUMP"
  | eq => "EQ"
  | ne => "NE"
  | lti => "LTI"
  | lei => "LEI"
  | gti => "GTI"
  | gei => "GEI"
  | ltu => "LTU"
  | leu => "LEU"
  | gtu => "GTU"
  | geu => "GEU"
  | eqf => "EQF"
  | nef => "NEF"
  | ltf => "LTF"
  | lef => "LEF"
  | gtf => "GTF"
  | gef => "GEF"
  | load1 => "LOAD1"
  | load2 => "LOAD2"
  | load4 => "LOAD4"
  | store1 => "STORE1"
  | store2 => "STORE2"
  | store4 => "STORE4"
  | arg => "ARG"
  | blockCopy => "BLOCK_COPY"
  | signExtend8 => "SEX8"
  | signExtend16 => "SEX16"
  | negi => "NEGI"
  | add => "ADD"
  | sub => "SUB"
  | divi => "DIVI"
  | divu => "DIVU"
  | modi => "MODI"
  | modu => "MODU"
  | muli => "MULI"
  | mulu => "MULU"
  | band => "BAND"
  | bor => "BOR"
  | bxor => "BXOR"
  | bcom => "BCOM"
  | lsh => "LSH"
  | rshi => "RSHI"
  | rshu => "RSHU"
  | negf => "NEGF"
  | addf => "ADDF"
  | subf => "SUBF"
  | divf => "DIVF"
  | mulf => "MULF"
  | intToFloat => "CVIF"
  | floatToInt => "CVFI"

/-- The opcode with an assembler name. -/
def ofName? (s : String) : Option Opcode :=
  all.find? (·.name == s)

/-- Whether an opcode is a conditional branch, so that its immediate names an instruction. -/
def isBranch : Opcode → Bool
  | eq | ne | lti | lei | gti | gei | ltu | leu | gtu | geu
  | eqf | nef | ltf | lef | gtf | gef => true
  | _ => false

/-- How many bytes follow an opcode in an image. -/
def immediateWidth : Opcode → Nat
  | enter | leave | constant | frameAddress | blockCopy => 4
  | arg => 1
  | op => if op.isBranch then 4 else 0

/-- Whether an opcode is followed by an immediate. -/
def hasImmediate (op : Opcode) : Bool :=
  op.immediateWidth != 0

end Opcode

/-- The name of any opcode byte; a byte outside the instruction set is shown by its number. -/
def mnemonic (b : UInt8) : String :=
  match Opcode.ofByte? b with
  | some op => op.name
  | none => s!"OP({b.toNat})"

end BytecodeHost
