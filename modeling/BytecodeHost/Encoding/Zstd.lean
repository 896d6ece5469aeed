import BytecodeHost.Digest.XxHash64
import BytecodeHost.Encoding.Zstd.Sequences

/-!
# Zstandard frames

A frame is a magic number, a header, blocks and an optional checksum. A block is stored, one byte
that is repeated, or compressed. This module reads all frames that need no dictionary. Frames may
follow each other, with skippable frames between them; their contents are concatenated.

How frames are written is left open. A compressor has many frames to choose from for one content,
and nothing but the reader has to understand its choice, so everything that compresses works with
any `Zstd.Compressor`. The one at hand writes stored blocks.

What a compressed block leaves behind for the next ones is a `Memory`, which lasts for one frame.

## Main definitions

* `Zstd.Compressor`, `Zstd.compress`: frames for a byte string.
* `Zstd.decompress limit`: the contents of frames, refused if they are longer than `limit`.
* `Zstd.decompressFirst limit wanted`: the front of them, whatever comes after it.
* `Zstd.LawfulCompressor`: a compressor whose frames are read back.
* `Zstd.storedFrame`: a frame with stored blocks.
-/

namespace BytecodeHost

namespace Zstd

/-- The number every frame starts with. -/
def frameMagic : UInt32 := 0xFD2FB528

/-- The least window. -/
def minWindow : Nat := 1024

/-- The greatest window. -/
def maxWindow : Nat := 1 <<< 29

/-! ## Writing -/

/-- A way to compress. -/
class Compressor where
  /-- Frames for a byte string. -/
  compress : ByteArray → ByteArray

export Compressor (compress)

/-- Appends a number in little-endian order. -/
def pushLE (b : ByteArray) : (width n : Nat) → ByteArray
  | 0, _ => b
  | width + 1, n => pushLE (b.push n.toUInt8) width (n / 256)

/-- Appends stored blocks for the bytes from offset `i` on. -/
def pushBlocks (src : ByteArray) : (fuel i : Nat) → ByteArray → ByteArray
  | 0, _, out => out
  | fuel + 1, i, out =>
    let length := min maxBlock (src.size - i)
    let isLast := src.size ≤ i + length
    let out := pushLE out 3 (8 * length + if isLast then 1 else 0)
    let out := out ++ src.extract i (i + length)
    if isLast then out else pushBlocks src fuel (i + length) out

/-- A frame with the size of its content and stored blocks; nothing for nothing. -/
def storedFrame (src : ByteArray) : ByteArray :=
  if src.size = 0 then .empty
  else
    let head := (pushLE .empty 4 frameMagic.toNat).push 0xE0
    pushBlocks src (src.size + 1) 0 (pushLE head 8 src.size)

instance : Compressor where
  compress := storedFrame

/-! ## Reading -/

/-- `width` bytes from offset `i` on as a little-endian number, if they are there. -/
def readLE? (b : ByteArray) (i width : Nat) : Option Nat :=
  if b.size < i + width then none
  else some ((List.range width).foldr (fun k n => 256 * n + (Bytes.byteAt b (i + k)).toNat) 0)

/-- What a frame header says. -/
structure FrameHeader where
  /-- Where the blocks start. -/
  start : Nat
  /-- The window size. -/
  window : Nat
  /-- The size of the content, if it is given. -/
  contentSize : Option Nat
  /-- Whether a checksum follows the blocks. -/
  hasChecksum : Bool

/-- The size of a content that is not known. -/
def unknownSize : Nat := 1 <<< 64 - 1

/-- The header after the magic number, which ends at offset `i`. A window that is given as such must
not be greater than the limit of the content, and neither must a content that is its own window. -/
def readHeader? (b : ByteArray) (i limit : Nat) : Option FrameHeader := do
  let descriptor ← readLE? b i 1
  let sizeFlag := descriptor / 64
  let single := descriptor / 32 % 2 = 1
  if descriptor / 8 % 2 = 1 then none
  let i := i + 1
  let window ← if single then some 0 else do
    let w ← readLE? b i 1
    let base := 1 <<< (10 + w / 8)
    some (base + base / 8 * (w % 8))
  let i := if single then i else i + 1
  let idWidth := match descriptor % 4 with
    | 3 => 4
    | n => n
  let dictionary ← readLE? b i idWidth
  if dictionary ≠ 0 then none
  let i := i + idWidth
  let width := match sizeFlag with
    | 0 => if single then 1 else 0
    | 1 => 2
    | 2 => 4
    | _ => 8
  let size ← readLE? b i width
  let size := if width = 2 then size + 256 else size
  let window := if single then max size minWindow else window
  if window < minWindow ∨ maxWindow < window ∨ limit < window then none
  some
    { start := i + width
      window
      contentSize := if width = 0 ∨ size = unknownSize then none else some size
      hasChecksum := descriptor / 4 % 2 = 1 }

/-- What blocks of a frame leave behind for the next ones. -/
structure Memory where
  huffman : Option HuffmanTable := none
  tables : Tables := {}
  recent : Recent := {}

/-- Appends the content of a compressed block to the output of a frame that starts at offset
`start`. -/
def readCompressed? (b : ByteArray) (window start : Nat) (m : Memory) (out : ByteArray) :
    Option (ByteArray × Memory) := do
  let (literals, huffman, i) ← readLiterals? b window m.huffman
  let bounds : Bounds := ⟨start, out.size, window⟩
  let (out, tables, recent) ← readSequences? b i m.tables m.recent bounds literals out
  return (out, ⟨huffman, tables, recent⟩)

/-- Appends the content of a block of a kind, whose bytes start at offset `i`, and returns the
offset after them. A repeated byte is written once, so its `size` is that of the content. -/
def readBlock? (b : ByteArray) (h : FrameHeader) (start kind size i : Nat) (m : Memory)
    (out : ByteArray) : Option (ByteArray × Memory × Nat) :=
  match kind with
  | 0 =>
    if b.size < i + size then none
    else some (out ++ b.extract i (i + size), m, i + size)
  | 1 =>
    if b.size < i + 1 then none
    else some (Bytes.pushMany out (Bytes.byteAt b i) size, m, i + 1)
  | 2 =>
    if b.size < i + size then none
    else
      match readCompressed? (b.extract i (i + size)) h.window start m out with
      | some (out, m) => some (out, m, i + size)
      | none => none
  | _ => none

/-- Reads blocks from offset `i` on, and returns the offset after the last one. Once `wanted` bytes
are out, no block is looked at any more, and there is no such offset. Neither is the end of a block
looked at that puts out more. -/
def readBlocks? (b : ByteArray) (h : FrameHeader) (limit wanted start : Nat) :
    (fuel i : Nat) → Memory → ByteArray → Option (ByteArray × Option Nat)
  | 0, _, _, _ => none
  | fuel + 1, i, m, out => do
    let word ← readLE? b i 3
    let size := word / 8
    if maxBlock < size ∨ h.window < size then none
    let (out, m, i) ← readBlock? b h start (word / 2 % 4) size (i + 3) m out
    if limit < out.size then none
    if wanted < out.size then return (out, none)
    if h.contentSize.any (· < out.size - start) then none
    if word % 2 = 1 then some (out, some i)
    else if wanted ≤ out.size then some (out, none)
    else readBlocks? b h limit wanted start fuel i m out

/-- The checksum of a content: the low half of its digest. -/
def checksum (content : ByteArray) : Nat :=
  (XxHash64.digest content).toNat % 1 <<< 32

/-- What is out after the blocks of a frame, and the offset after the frame. Output from offset
`start` on that is complete must have the size and the checksum that the frame gives. -/
def FrameHeader.close? (h : FrameHeader) (b : ByteArray) (start : Nat) :
    ByteArray × Option Nat → Option (ByteArray × Option Nat)
  | (out, none) => some (out, none)
  | (out, some i) => do
    if h.contentSize.any (out.size - start ≠ ·) then none
    if h.hasChecksum then
      let expected ← readLE? b i 4
      if checksum (out.extract start out.size) ≠ expected then none else some (out, some (i + 4))
    else some (out, some i)

/-- Reads a frame whose magic number ends at offset `i`, and returns the offset after it unless
enough is out before. -/
def readFrame? (b : ByteArray) (limit wanted i : Nat) (out : ByteArray) :
    Option (ByteArray × Option Nat) := do
  let h ← readHeader? b i limit
  if h.contentSize.any (limit < out.size + ·) then none
  h.close? b out.size (← readBlocks? b h limit wanted out.size b.size h.start {} out)

/-- Reads frames from offset `i` on, until `wanted` bytes are out. -/
def readFrames? (b : ByteArray) (limit wanted : Nat) : (fuel i : Nat) → ByteArray → Option ByteArray
  | 0, _, _ => none
  | fuel + 1, i, out =>
    if b.size ≤ i ∨ wanted ≤ out.size then some out
    else do
      let magic ← readLE? b i 4
      if magic / 16 = 0x184D2A5 then
        let size ← readLE? b (i + 4) 4
        if b.size < i + 8 + size then none
        else readFrames? b limit wanted fuel (i + 8 + size) out
      else if magic ≠ frameMagic.toNat then none
      else
        match ← readFrame? b limit wanted (i + 4) out with
        | (out, none) => some out
        | (out, some i) => readFrames? b limit wanted fuel i out

/-- The first `wanted` bytes of the contents of frames, or all if they are fewer. What comes after
them is not looked at. -/
def decompressFirst (limit wanted : Nat) (b : ByteArray) : Option ByteArray :=
  (readFrames? b limit wanted (b.size + 1) 0 .empty).map (·.extract 0 wanted)

/-- The contents of frames, if they are at most `limit` bytes. -/
def decompress (limit : Nat) (b : ByteArray) : Option ByteArray :=
  -- more than `limit` bytes are never out
  readFrames? b limit (limit + 1) (b.size + 1) 0 .empty

/-- A compressor whose frames are read back, and are not much longer than their content. -/
class LawfulCompressor [Compressor] : Prop where
  /-- A content is read back if the reader's limits allow it. -/
  decompress_compress {limit : Nat} {src : ByteArray} (hlimit : src.size ≤ limit)
    (hmin : minWindow ≤ limit) (hmax : src.size ≤ maxWindow) :
    decompress limit (compress src) = some src
  /-- A content grows by the headers of its frames and blocks. -/
  size_compress_le (src : ByteArray) : (compress src).size ≤ 4 * src.size + 64

export LawfulCompressor (decompress_compress size_compress_le)

end Zstd

end BytecodeHost
