import BytecodeHost.Arena
import BytecodeHost.Image.Header
import BytecodeHost.Program

/-!
# Loading module images

Loading checks the header of an image against the image's length, builds the data arena and
prepares the program. Header errors come before code errors, and of several header errors the
first in the order of `Header.check` is reported.

## Main definitions

* `Header.parse`: the header of an image, if it is acceptable.
* `Header.arenaSize`: the least power of two that holds all three segments.
* `Module.load`: a module ready to run.
-/

namespace BytecodeHost

/-- The longest image that is loaded. -/
def maxImageSize : Nat := 0x400000

/-- The longest bss segment. -/
def maxBssLength : Int32 := 10485760

/-- Why an image is refused. -/
inductive LoadError where
  /-- There is no room for code after the header. -/
  | tooShort (size : Nat)
  /-- The image is longer than `maxImageSize`. -/
  | tooLong (size : Nat)
  /-- The image does not start with the module magic. -/
  | badMagic (magic : UInt32)
  /-- The instruction count is not positive. -/
  | instructionCount (count : Int32)
  /-- The code section has a negative offset or no length. -/
  | codeSection (offset length : Int32)
  /-- The data section has a negative offset or length. -/
  | dataSection (offset data lit : Int32)
  /-- The bss length is negative or too large. -/
  | bssLength (length : Int32)
  /-- The code section ends past the image. -/
  | codePastEnd (size : Nat)
  /-- The data section ends past the image. -/
  | dataPastEnd (size : Nat)
  /-- The arena could not be made. -/
  | arena (e : Arena.Error)
  /-- The code section does not hold the program it promises. -/
  | code (e : CodeError)
  deriving DecidableEq

namespace LoadError

/-- The kind of a load error. -/
def kind : LoadError → Kind
  | arena _ => .allocationFailed
  | code e => e.kind
  | _ => .invalidModule

/-- What a load error says. -/
def detail : LoadError → Text
  | tooShort size => s!"{size} bytes is too short"
  | tooLong size => s!"{size} bytes exceeds {maxImageSize}"
  | badMagic magic =>
    ("bad magic 0x" ++ Text.padLeft '0' 8 (Text.hexNat magic.toNat) ++ ", expected 0x"
      ++ Text.padLeft '0' 8 (Text.hexNat Header.moduleMagic.toNat) : String)
  | instructionCount count => s!"instruction count {count.toInt}"
  | codeSection offset length => s!"code section {offset.toInt}+{length.toInt}"
  | dataSection offset data lit => s!"data section {offset.toInt}+{data.toInt}+{lit.toInt}"
  | bssLength length => s!"bss length {length.toInt}"
  | codePastEnd size => s!"code section ends past {size} bytes"
  | dataPastEnd size => s!"data section ends past {size} bytes"
  | arena e => e.toFailure.message
  | code e => e.detail

/-- The failure that a load error is. -/
def toFailure (e : LoadError) : Failure :=
  .because e.kind e.detail

end LoadError

namespace Header

/-- The first rule that a header breaks in an image of a given size. -/
def check (h : Header) (size : Nat) : Except LoadError Unit :=
  if h.instructionCount ≤ 0 then .error (.instructionCount h.instructionCount)
  else if h.codeOffset < 0 ∨ h.codeLength ≤ 0 then
    .error (.codeSection h.codeOffset h.codeLength)
  else if h.dataOffset < 0 ∨ h.dataLength < 0 ∨ h.litLength < 0 then
    .error (.dataSection h.dataOffset h.dataLength h.litLength)
  else if h.bssLength < 0 ∨ maxBssLength < h.bssLength then .error (.bssLength h.bssLength)
  else if (size : Int) < h.codeOffset.toInt + h.codeLength.toInt then .error (.codePastEnd size)
  else if (size : Int) < h.dataOffset.toInt + h.dataLength.toInt + h.litLength.toInt then
    .error (.dataPastEnd size)
  else .ok ()

/-- The header of an image, if the image may be loaded as far as its header tells. -/
def parse (image : ByteArray) : Except LoadError Header :=
  if image.size ≤ byteSize then .error (.tooShort image.size)
  else if maxImageSize < image.size then .error (.tooLong image.size)
  else
    let h := decode image
    if h.magic ≠ moduleMagic then .error (.badMagic h.magic)
    else
      match h.check image.size with
      | .error e => .error e
      | .ok () => .ok h

/-- Doubles `size` until it reaches `total`, at most `n` times. -/
def doubled (total : UInt32) : Nat → UInt32 → UInt32
  | 0, size => size
  | n + 1, size => if size < total then doubled total n (size <<< 1) else size

/-- The least power of two that holds the data, literal and bss segments. -/
def arenaSize (h : Header) : UInt32 :=
  doubled (h.dataLength.toUInt32 + h.litLength.toUInt32 + h.bssLength.toUInt32) 32 1

/-- The bytes of a section of an image. -/
def sectionBytes (image : ByteArray) (offset length : Int32) : ByteArray :=
  image.extract offset.toInt.toNat (offset.toInt.toNat + length.toInt.toNat)

/-- The code section of an image. -/
def codeBytes (h : Header) (image : ByteArray) : ByteArray :=
  sectionBytes image h.codeOffset h.codeLength

/-- The initialized data of an image: data words and literals. -/
def dataBytes (h : Header) (image : ByteArray) : ByteArray :=
  sectionBytes image h.dataOffset (h.dataLength + h.litLength)

/-- The arena that a module starts with: its initialized data, then zeros. -/
def buildArena (h : Header) (image : ByteArray) : Except Arena.Error Arena :=
  match Arena.new h.arenaSize with
  | .error e => .error e
  | .ok arena => .ok (arena.write 0 (h.dataBytes image))

end Header

/-- A module ready to run. -/
structure Module where
  /-- The name used in messages. -/
  name : String
  /-- The accepted header. -/
  header : Header
  /-- The prepared program. -/
  program : Program
  /-- The initial arena. -/
  arena : Arena

namespace Module

/-- Loads a module from an image. -/
def load (name : String) (image : ByteArray) : Except LoadError Module :=
  match Header.parse image with
  | .error e => .error e
  | .ok header =>
    match header.buildArena image with
    | .error e => .error (.arena e)
    | .ok arena =>
      match Program.prepare (header.codeBytes image) header.instructionCount.toInt.toNat with
      | .error e => .error (.code e)
      | .ok program => .ok { name, header, program, arena }

end Module

end BytecodeHost
