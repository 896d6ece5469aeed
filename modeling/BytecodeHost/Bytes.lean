/-!
# Byte strings

Little-endian words and hexadecimal text of byte strings.

## Main definitions

* `Bytes.zeros n`: `n` zero bytes.
* `Bytes.ofWord w`: the four bytes of a word, least significant first.
* `Bytes.wordAt b i`: the word stored at offset `i`; bytes past the end read as zero.
* `Bytes.toHex`, `Bytes.ofHex?`: lower-case hexadecimal text, and its reader.
-/

namespace BytecodeHost

namespace Bytes

/-- Byte strings are compared byte by byte. -/
instance decidableEq : DecidableEq ByteArray := ByteArray.instDecidableEq

/-- A byte string followed by `n` copies of a byte. -/
def pushMany (b : ByteArray) (x : UInt8) : Nat → ByteArray
  | 0 => b
  | n + 1 => pushMany (b.push x) x n

@[simp] theorem size_pushMany (b : ByteArray) (x : UInt8) (n : Nat) :
    (pushMany b x n).size = b.size + n := by
  induction n generalizing b with
  | zero => rfl
  | succ n ih => simp [pushMany, ih]; omega

/-- A byte string of `n` equal bytes. -/
def fill (x : UInt8) (n : Nat) : ByteArray :=
  pushMany (.emptyWithCapacity n) x n

/-- A byte string of `n` zero bytes. -/
def zeros (n : Nat) : ByteArray :=
  fill 0 n

@[simp] theorem size_fill (x : UInt8) (n : Nat) : (fill x n).size = n := by
  rw [fill, size_pushMany]
  exact Nat.zero_add n

@[simp] theorem size_zeros (n : Nat) : (zeros n).size = n :=
  size_fill 0 n

/-- The byte at offset `i`, or zero past the end. -/
@[inline] def byteAt (b : ByteArray) (i : Nat) : UInt8 :=
  if h : i < b.size then b.get i h else 0

/-! ## Words -/

/-- A word from its four bytes, least significant first. -/
@[inline] def word (b₀ b₁ b₂ b₃ : UInt8) : UInt32 :=
  b₀.toUInt32 ||| (b₁.toUInt32 <<< 8) ||| (b₂.toUInt32 <<< 16) ||| (b₃.toUInt32 <<< 24)

/-- Byte `k` of a word, counted from the least significant. -/
@[inline] def wordByte (w : UInt32) (k : UInt32) : UInt8 :=
  (w >>> (8 * k)).toUInt8

/-- The little-endian word at offset `i`. -/
def wordAt (b : ByteArray) (i : Nat) : UInt32 :=
  word (byteAt b i) (byteAt b (i + 1)) (byteAt b (i + 2)) (byteAt b (i + 3))

/-- The four little-endian bytes of a word, appended to a byte string. -/
def pushWord (b : ByteArray) (w : UInt32) : ByteArray :=
  (((b.push (wordByte w 0)).push (wordByte w 1)).push (wordByte w 2)).push (wordByte w 3)

/-- The four little-endian bytes of a word. -/
def ofWord (w : UInt32) : ByteArray :=
  pushWord .empty w

@[simp] theorem size_pushWord (b : ByteArray) (w : UInt32) : (pushWord b w).size = b.size + 4 := by
  simp [pushWord]

/-! ## Overwriting

A byte string keeps its size when bytes inside it are replaced. -/

@[simp] theorem size_set (b : ByteArray) (i : Nat) (x : UInt8) (h : i < b.size) :
    (b.set i x h).size = b.size := by
  rw [← ByteArray.size_data, ByteArray.data_set, Array.size_set, ByteArray.size_data]

/-- The bytes of `s` written over `b` from offset `i` on. -/
def overwrite (b : ByteArray) (i : Nat) (s : ByteArray) : ByteArray :=
  s.copySlice 0 b i s.size

theorem size_overwrite {b s : ByteArray} {i : Nat} (h : i + s.size ≤ b.size) :
    (overwrite b i s).size = b.size := by
  simp only [overwrite, ByteArray.copySlice_eq_append, ByteArray.size_append,
    ByteArray.size_extract]
  have : s.data.size = s.size := rfl
  have : b.data.size = b.size := rfl
  omega

/-- The byte pair `x, y` written at offset `i`. -/
def setPair (b : ByteArray) (i : Nat) (x y : UInt8) (h : i + 2 ≤ b.size) : ByteArray :=
  (b.set i x (by omega)).set (i + 1) y (by simp; omega)

@[simp] theorem size_setPair (b : ByteArray) (i : Nat) (x y : UInt8) (h : i + 2 ≤ b.size) :
    (setPair b i x y h).size = b.size := by
  simp [setPair]

/-- The little-endian bytes of a word written at offset `i`. -/
def setWord (b : ByteArray) (i : Nat) (w : UInt32) (h : i + 4 ≤ b.size) : ByteArray :=
  setPair (setPair b i (wordByte w 0) (wordByte w 1) (by omega)) (i + 2)
    (wordByte w 2) (wordByte w 3) (by simp; omega)

@[simp] theorem size_setWord (b : ByteArray) (i : Nat) (w : UInt32) (h : i + 4 ≤ b.size) :
    (setWord b i w h).size = b.size := by
  simp [setWord]

/-- The offset of the first zero byte from `i` on, or the size if there is none. -/
def zeroFrom (b : ByteArray) (i : Nat) : Nat :=
  go (b.size - i) i
where
  /-- Searches the next `n` bytes. -/
  go : Nat → Nat → Nat
    | 0, i => i
    | n + 1, i => if byteAt b i = 0 then i else go n (i + 1)

/-! ## Order -/

/-- Whether `a` comes strictly before `b` in byte order. -/
def lt (a b : ByteArray) : Bool :=
  go (min a.size b.size) 0
where
  /-- Compares the bytes from offset `i` on, with `n` shared bytes left. -/
  go : Nat → Nat → Bool
    | 0, _ => a.size < b.size
    | n + 1, i =>
      let x := byteAt a i
      let y := byteAt b i
      if x < y then true else if y < x then false else go n (i + 1)

/-! ## Hexadecimal text -/

/-- The lower-case hexadecimal digit of a number below sixteen. -/
def hexDigit (n : UInt8) : Char :=
  if n < 10 then Char.ofNat (48 + n.toNat) else Char.ofNat (87 + n.toNat)

/-- Two lower-case digits for each byte. -/
def toHex (b : ByteArray) : String :=
  b.foldl (fun s x => (s.push (hexDigit (x >>> 4))).push (hexDigit (x &&& 15))) ""

/-- The value of a hexadecimal digit of either case. -/
def hexValue? (c : Char) : Option UInt8 :=
  let n := c.toNat
  if 48 ≤ n ∧ n ≤ 57 then some (n - 48).toUInt8
  else if 97 ≤ n ∧ n ≤ 102 then some (n - 87).toUInt8
  else if 65 ≤ n ∧ n ≤ 70 then some (n - 55).toUInt8
  else none

/-- Reads pairs of hexadecimal digits. -/
def ofHex? (s : String) : Option ByteArray :=
  let step : Option (ByteArray × Option UInt8) → Char → Option (ByteArray × Option UInt8) :=
    fun acc c =>
      match acc, hexValue? c with
      | some (b, none), some v => some (b, some v)
      | some (b, some hi), some v => some (b.push (hi <<< 4 ||| v), none)
      | _, _ => none
  match s.foldl step (some (.empty, none)) with
  | some (b, none) => some b
  | _ => none

/-- Whether every byte is zero. -/
def allZero (b : ByteArray) : Bool :=
  b.foldl (fun ok x => ok && x == 0) true

end Bytes

end BytecodeHost
