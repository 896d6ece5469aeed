import BytecodeHost.Bytes

/-!
# XXH64

The 64-bit checksum of a byte string. Four sums run over the words of stripes of 32 bytes; they are
merged, and what is left of the input is mixed in eight, four and one byte at a time.

## Main definitions

* `XxHash64.digest`: the checksum.
-/

namespace BytecodeHost

namespace XxHash64

/-- The first multiplier. -/
def prime₁ : UInt64 := 0x9E3779B185EBCA87

/-- The second multiplier. -/
def prime₂ : UInt64 := 0xC2B2AE3D27D4EB4F

/-- The third multiplier. -/
def prime₃ : UInt64 := 0x165667B19E3779F9

/-- The fourth multiplier. -/
def prime₄ : UInt64 := 0x85EBCA77C2B2AE63

/-- The fifth multiplier. -/
def prime₅ : UInt64 := 0x27D4EB2F165667C5

/-- A word turned left. -/
@[inline] def rotate (x : UInt64) (k : UInt64) : UInt64 :=
  (x <<< k) ||| (x >>> (64 - k))

/-- The little-endian 64-bit word at offset `i`. -/
def wideAt (b : ByteArray) (i : Nat) : UInt64 :=
  (Bytes.wordAt b i).toUInt64 ||| ((Bytes.wordAt b (i + 4)).toUInt64 <<< 32)

/-- A sum with one more word. -/
def add (sum word : UInt64) : UInt64 :=
  rotate (sum + word * prime₂) 31 * prime₁

/-- The four sums. -/
structure Sums where
  a : UInt64 := prime₁ + prime₂
  b : UInt64 := prime₂
  c : UInt64 := 0
  d : UInt64 := 0 - prime₁

/-- The sums after `n` stripes from offset `i` on. -/
def addStripes (bytes : ByteArray) : (n i : Nat) → Sums → Sums
  | 0, _, s => s
  | n + 1, i, s =>
    addStripes bytes n (i + 32)
      { a := add s.a (wideAt bytes i)
        b := add s.b (wideAt bytes (i + 8))
        c := add s.c (wideAt bytes (i + 16))
        d := add s.d (wideAt bytes (i + 24)) }

/-- One sum merged into a checksum. -/
def mergeSum (h sum : UInt64) : UInt64 :=
  (h ^^^ add 0 sum) * prime₁ + prime₄

/-- The sums as one number. -/
def Sums.merge (s : Sums) : UInt64 :=
  let h := rotate s.a 1 + rotate s.b 7 + rotate s.c 12 + rotate s.d 18
  mergeSum (mergeSum (mergeSum (mergeSum h s.a) s.b) s.c) s.d

/-- Mixes in `n` words of eight bytes. -/
def mixWide (bytes : ByteArray) : (n i : Nat) → UInt64 → UInt64
  | 0, _, h => h
  | n + 1, i, h =>
    mixWide bytes n (i + 8) (rotate (h ^^^ add 0 (wideAt bytes i)) 27 * prime₁ + prime₄)

/-- Mixes in `n` words of four bytes. -/
def mixWord (bytes : ByteArray) : (n i : Nat) → UInt64 → UInt64
  | 0, _, h => h
  | n + 1, i, h =>
    let w := (Bytes.wordAt bytes i).toUInt64
    mixWord bytes n (i + 4) (rotate (h ^^^ (w * prime₁)) 23 * prime₂ + prime₃)

/-- Mixes in `n` bytes. -/
def mixByte (bytes : ByteArray) : (n i : Nat) → UInt64 → UInt64
  | 0, _, h => h
  | n + 1, i, h =>
    let x := (Bytes.byteAt bytes i).toUInt64
    mixByte bytes n (i + 1) (rotate (h ^^^ (x * prime₅)) 11 * prime₁)

/-- Lets every bit bear on all bits. -/
def scramble (h : UInt64) : UInt64 :=
  let h := (h ^^^ (h >>> 33)) * prime₂
  let h := (h ^^^ (h >>> 29)) * prime₃
  h ^^^ (h >>> 32)

/-- The checksum of a byte string. -/
def digest (bytes : ByteArray) : UInt64 :=
  let n := bytes.size
  let h := if n < 32 then prime₅ else (addStripes bytes (n / 32) 0 {}).merge
  let h := h + n.toUInt64
  let h := mixWide bytes (n % 32 / 8) (n - n % 32) h
  let h := mixWord bytes (n % 8 / 4) (n - n % 8) h
  scramble (mixByte bytes (n % 4) (n - n % 4) h)

end XxHash64

end BytecodeHost
