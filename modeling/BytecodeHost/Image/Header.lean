import BytecodeHost.Bytes

/-!
# Module headers

A module image starts with eight little-endian words. `Header.encode` writes them and
`Header.decode` reads them without judging them; `BytecodeHost.Image.Load` decides which headers
are acceptable.
-/

namespace BytecodeHost

/-- The fixed header of a module image. Offsets and lengths count bytes. -/
structure Header where
  /-- Marks the file as a module. -/
  magic : UInt32
  /-- How many instructions the code section holds. -/
  instructionCount : Int32
  /-- Where the code section starts. -/
  codeOffset : Int32
  /-- How long the code section is. -/
  codeLength : Int32
  /-- Where the initialized data starts; literals follow it. -/
  dataOffset : Int32
  /-- How many bytes of data words there are. -/
  dataLength : Int32
  /-- How many bytes of literals there are. -/
  litLength : Int32
  /-- How many zero bytes the arena reserves after them. -/
  bssLength : Int32
  deriving DecidableEq

namespace Header

/-- The number that marks a module. -/
def moduleMagic : UInt32 := 0x12721444

/-- The bytes a header takes. -/
def byteSize : Nat := 32

/-- The header's words in image order. -/
def words (h : Header) : List UInt32 :=
  [h.magic, h.instructionCount.toUInt32, h.codeOffset.toUInt32, h.codeLength.toUInt32,
   h.dataOffset.toUInt32, h.dataLength.toUInt32, h.litLength.toUInt32, h.bssLength.toUInt32]

/-- The header as it stands in an image. -/
def encode (h : Header) : ByteArray :=
  h.words.foldl Bytes.pushWord .empty

/-- The header in the first `byteSize` bytes of an image. -/
def decode (b : ByteArray) : Header where
  magic := Bytes.wordAt b 0
  instructionCount := (Bytes.wordAt b 4).toInt32
  codeOffset := (Bytes.wordAt b 8).toInt32
  codeLength := (Bytes.wordAt b 12).toInt32
  dataOffset := (Bytes.wordAt b 16).toInt32
  dataLength := (Bytes.wordAt b 20).toInt32
  litLength := (Bytes.wordAt b 24).toInt32
  bssLength := (Bytes.wordAt b 28).toInt32

end Header

end BytecodeHost
