import BytecodeHost.Failure

/-!
# Data arenas

An arena is a byte buffer whose size is a power of two, followed by four guard bytes. Every
address is masked before use, so an access outside the arena wraps around instead of failing; the
guard bytes take up what a multi-byte access at the last address needs. Only `validRange` and
`blockCopy` check bounds.

The two facts that make every access stay inside the buffer are fields of `Arena`, and each
operation keeps them.

## Main definitions

* `Arena.new`: a zero-filled arena.
* `Arena.load1`, `Arena.load2`, `Arena.load4`, `Arena.store1`, `Arena.store2`, `Arena.store4`:
  masked little-endian access.
* `Arena.inRange`, `Arena.blockCopy`: unmasked ranges.
* `Arena.cString`: the bytes up to the next zero byte.
-/

namespace BytecodeHost

/-- A masked byte buffer. -/
structure Arena where
  /-- The buffer, guard bytes included. -/
  bytes : ByteArray
  /-- The size less one; addresses are masked with it. -/
  mask : UInt32
  /-- The size is a power of two that a word can hold. -/
  isPowerOfTwo : ∃ k < 32, mask.toNat + 1 = 1 <<< k
  /-- The buffer has four guard bytes. -/
  size_bytes : bytes.size = mask.toNat + 5

namespace Arena

/-- The bytes past the masked region. -/
def guardSize : Nat := 4

/-- Why an arena operation is refused. -/
inductive Error where
  /-- The size is zero or has more than one bit set. -/
  | notPowerOfTwo (size : UInt32)
  /-- A range needs masking. -/
  | range (address length size : UInt32)
  /-- One of the ranges of a copy needs masking. -/
  | copy (dst src length : UInt32)
  /-- A saved buffer has another size. -/
  | restore (saved size : Nat)
  deriving DecidableEq

/-- The failure that an arena error is. -/
def Error.toFailure : Error → Failure
  | notPowerOfTwo size =>
    .ofCause .sizeNotPowerOfTwo s!"arena size is not a power of two: {size.toNat}"
  | range address length size =>
    .ofCause .outOfRange ("memory range out of bounds: 0x" ++ Text.hexNat address.toNat
      ++ s!"+{length.toNat} (size {size.toNat})" : String)
  | copy dst src length =>
    .ofCause .outOfRange ("memory range out of bounds: copy 0x" ++ Text.hexNat dst.toNat
      ++ " <- 0x" ++ Text.hexNat src.toNat ++ s!" ({length.toNat} bytes)" : String)
  | restore saved size =>
    .ofCause .outOfRange
      s!"memory range out of bounds: snapshot is {saved} bytes, arena is {size}"

/-- A word with exactly one bit set is a power of two. -/
theorem pow_of_and_sub_one {size : UInt32} (h : size ≠ 0) (hand : size &&& (size - 1) = 0) :
    ∃ k < 32, (size - 1).toNat + 1 = 1 <<< k := by
  have hpos : size.toNat ≠ 0 := fun h0 => h (UInt32.toNat_inj.1 h0)
  have hle : (1 : UInt32) ≤ size := by
    rw [UInt32.le_iff_toNat_le]
    exact Nat.pos_of_ne_zero hpos
  have hsub : (size - 1).toNat = size.toNat - 1 := by
    simpa using UInt32.toNat_sub_of_le size 1 hle
  have hnat : size.toNat &&& (size.toNat - 1) = 0 := by
    rw [← hsub, ← UInt32.toNat_and, hand]
    rfl
  obtain ⟨k, hk⟩ := (Nat.and_sub_one_eq_zero_iff_isPowerOfTwo hpos).1 hnat
  refine ⟨k, ?_, by rw [Nat.one_shiftLeft]; omega⟩
  have hlt : 2 ^ k < 2 ^ 32 := hk ▸ size.toNat_lt
  exact (Nat.pow_lt_pow_iff_right (by omega)).1 hlt

/-- A zero-filled arena of a size that is a power of two. -/
def new (size : UInt32) : Except Error Arena :=
  if h : size = 0 ∨ size &&& (size - 1) ≠ 0 then .error (.notPowerOfTwo size)
  else
    have hne : size ≠ 0 := fun h0 => h (.inl h0)
    have hand : size &&& (size - 1) = 0 := Decidable.not_not.1 fun h0 => h (.inr h0)
    .ok
      { bytes := Bytes.zeros ((size - 1).toNat + 5)
        mask := size - 1
        isPowerOfTwo := pow_of_and_sub_one hne hand
        size_bytes := by simp }

/-- The size of the masked region. -/
def size (a : Arena) : UInt32 :=
  a.mask + 1

/-- The offset that an address stands for. -/
@[inline] def index (a : Arena) (address : UInt32) : Nat :=
  (address &&& a.mask).toNat

theorem index_le (a : Arena) (address : UInt32) : a.index address ≤ a.mask.toNat := by
  rw [index, UInt32.toNat_and]
  exact Nat.and_le_right

theorem index_add_four_le (a : Arena) (address : UInt32) :
    a.index address + 4 ≤ a.bytes.size := by
  have := a.index_le address
  have := a.size_bytes
  omega

/-! ## Loads -/

/-- The byte at an address. -/
def load1 (a : Arena) (address : UInt32) : UInt8 :=
  a.bytes.get (a.index address) (by have := a.index_add_four_le address; omega)

/-- The 16-bit value at an address. -/
def load2 (a : Arena) (address : UInt32) : UInt16 :=
  have h := a.index_add_four_le address
  (a.bytes.get (a.index address) (by omega)).toUInt16
    ||| ((a.bytes.get (a.index address + 1) (by omega)).toUInt16 <<< 8)

/-- The word at an address. -/
def load4 (a : Arena) (address : UInt32) : UInt32 :=
  have h := a.index_add_four_le address
  Bytes.word (a.bytes.get (a.index address) (by omega))
    (a.bytes.get (a.index address + 1) (by omega))
    (a.bytes.get (a.index address + 2) (by omega))
    (a.bytes.get (a.index address + 3) (by omega))

/-! ## Stores -/

/-- The arena with another buffer of the same size. -/
@[inline] def withBytes (a : Arena) (bytes : ByteArray) (h : bytes.size = a.bytes.size) : Arena :=
  { a with bytes := bytes, size_bytes := h.trans a.size_bytes }

/-- Writes a byte. -/
def store1 (a : Arena) (address : UInt32) (x : UInt8) : Arena :=
  let i := a.index address
  have hi : i < a.bytes.size := by have := a.index_add_four_le address; omega
  a.withBytes (a.bytes.set i x hi) (by simp)

/-- Writes a 16-bit value. -/
def store2 (a : Arena) (address : UInt32) (x : UInt16) : Arena :=
  let i := a.index address
  have hi : i + 2 ≤ a.bytes.size := by have := a.index_add_four_le address; omega
  a.withBytes (Bytes.setPair a.bytes i x.toUInt8 (x >>> 8).toUInt8 hi) (by simp)

/-- Writes a word. -/
def store4 (a : Arena) (address : UInt32) (x : UInt32) : Arena :=
  let i := a.index address
  have hi : i + 4 ≤ a.bytes.size := a.index_add_four_le address
  a.withBytes (Bytes.setWord a.bytes i x hi) (by simp)

/-! ## Ranges -/

/-- Whether an address range, its end included, needs no masking. -/
def inRange (a : Arena) (address length : UInt32) : Bool :=
  let stop := address + length
  address &&& a.mask == address && stop &&& a.mask == stop && address ≤ stop

/-- Checks that a range needs no masking. -/
def validRange (a : Arena) (address length : UInt32) : Except Error Unit :=
  if a.inRange address length then .ok () else .error (.range address length a.size)

/-- The bytes from a masked address to the end of the buffer. -/
def slice (a : Arena) (address : UInt32) : ByteArray :=
  a.bytes.extract (a.index address) a.bytes.size

/-- `length` bytes from an unmasked offset on, as far as the buffer goes. -/
def read (a : Arena) (offset length : Nat) : ByteArray :=
  a.bytes.extract offset (offset + length)

/-- Writes bytes at an unmasked offset; what would pass the end of the buffer is dropped. -/
def write (a : Arena) (offset : Nat) (s : ByteArray) : Arena :=
  if h : offset + s.size ≤ a.bytes.size then
    a.withBytes (Bytes.overwrite a.bytes offset s) (Bytes.size_overwrite h)
  else
    let s' := s.extract 0 (a.bytes.size - offset)
    if h' : offset + s'.size ≤ a.bytes.size then
      a.withBytes (Bytes.overwrite a.bytes offset s') (Bytes.size_overwrite h')
    else a

/-- Copies a range onto another, as if through a buffer between them. -/
def moveBytes (a : Arena) (dst src length : UInt32) : Arena :=
  let moved := a.read src.toNat length.toNat
  a.write dst.toNat moved

/-- Copies a range onto another. Both ranges are checked before anything is written. -/
def blockCopy (a : Arena) (dst src length : UInt32) : Except Error Arena :=
  if a.inRange dst length && a.inRange src length then .ok (a.moveBytes dst src length)
  else .error (.copy dst src length)

/-- The bytes from a masked address up to the next zero byte or the end of the buffer. -/
def cString (a : Arena) (address : UInt32) : ByteArray :=
  let i := a.index address
  a.bytes.extract i (Bytes.zeroFrom a.bytes i)

/-! ## Whole buffers -/

/-- Replaces the whole buffer by a saved one. -/
def restore (a : Arena) (saved : ByteArray) : Except Error Arena :=
  if h : saved.size = a.bytes.size then .ok (a.withBytes saved h)
  else .error (.restore saved.size a.bytes.size)

end Arena

end BytecodeHost
