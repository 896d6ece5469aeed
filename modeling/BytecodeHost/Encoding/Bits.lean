import BytecodeHost.Bytes

/-!
# Bit strings

The bits of a byte string are counted from its first byte on, and in a byte from the least
significant bit on. Numbers of a few bits are read at a position, or from the last bit to the first.

Everything is total: bits outside the byte string are zero. Whoever must not read them compares
positions, which `BitTail.take?` does for those who read from the end.

## Main definitions

* `Bits.peek`: the number that bits at a position stand for.
* `BitTail`: bits that are read from the last one to the first.
-/

namespace BytecodeHost

/-- The number that the `n` bits from position `pos` on stand for; there are at most 32 of them. -/
def Bits.peek (b : ByteArray) (pos n : Nat) : Nat :=
  let low := (Bytes.wordAt b (pos / 8)).toNat
  let high := (Bytes.byteAt b (pos / 8 + 4)).toNat
  ((high <<< 32 + low) >>> (pos % 8)) % (1 <<< n)

/-- Bits that are read from the last one to the first. -/
structure BitTail where
  /-- The bytes that hold them. -/
  bytes : ByteArray
  /-- How many bits are left. -/
  left : Nat

namespace BitTail

/-- The bits of a byte string below the highest bit of its last byte, which marks their end. -/
def ofBytes? (b : ByteArray) : Option BitTail :=
  let last := Bytes.byteAt b (b.size - 1)
  if last = 0 then none else some ⟨b, 8 * (b.size - 1) + last.toNat.log2⟩

/-- The number that the next `n` bits stand for, zeros following the first bit of all. -/
def peek (t : BitTail) (n : Nat) : Nat :=
  if n ≤ t.left then Bits.peek t.bytes (t.left - n) n
  else Bits.peek t.bytes 0 t.left <<< (n - t.left)

/-- What is left after `n` bits, if there are so many. -/
def drop? (t : BitTail) (n : Nat) : Option BitTail :=
  if n ≤ t.left then some { t with left := t.left - n } else none

/-- The number that the next `n` bits stand for, and what is left after them. -/
def take? (t : BitTail) (n : Nat) : Option (Nat × BitTail) :=
  (t.drop? n).map fun rest => (t.peek n, rest)

/-- Like `take?`, but where no bit is left there are zeros enough. -/
def takeOrZero? (t : BitTail) (n : Nat) : Option (Nat × BitTail) :=
  if t.left = 0 then some (0, t) else t.take? n

end BitTail

end BytecodeHost
