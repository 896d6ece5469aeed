import BytecodeHost.Arena
import BytecodeHost.Proofs.Bytes
import BytecodeHost.Proofs.Checked

/-!
# Arenas as byte strings

Masked accesses are accesses to the buffer at a masked offset. The mask is one less than a power of
two, so it leaves every address below the size alone, and the guard bytes take up what a word at
the last offset needs.

## Main definitions

* `Arena.Apart`, `Arena.Covers` — words as ranges of the buffer
* `Arena.AgreesOutside` — arenas that differ in a range of the buffer only

## Main results

* `Arena.index_of_le` — addresses below the size stand for themselves
* `Arena.store4_load4` — storing the word that is there changes nothing
* `Arena.inRange_iff` — an unmasked range, its end included, lies below the size
* `Arena.load4_store4`, `Arena.load4_store4_of_apart` — what is read after a word was written
* `Arena.apart_add` — words at distances of four bytes have no byte in common
* `Checked.access_eq_ok` — every masked access lies in the buffer
-/

namespace BytecodeHost

namespace Arena

theorem exists_mask_eq (a : Arena) : ∃ k < 32, a.mask.toNat + 1 = 2 ^ k := by
  obtain ⟨k, hk32, hk⟩ := a.isPowerOfTwo
  exact ⟨k, hk32, by rw [hk, Nat.one_shiftLeft]⟩

theorem toNat_mask_lt (a : Arena) : a.mask.toNat < 2 ^ 31 := by
  obtain ⟨k, hk, hmask⟩ := a.exists_mask_eq
  have hle : 2 ^ k ≤ 2 ^ 31 := Nat.pow_le_pow_right (by omega) (by omega)
  omega

/-- Masking is taking the remainder by the size. -/
theorem index_eq_mod (a : Arena) (address : UInt32) :
    a.index address = address.toNat % (a.mask.toNat + 1) := by
  obtain ⟨k, -, hk⟩ := a.exists_mask_eq
  rw [index, UInt32.toNat_and, hk, show a.mask.toNat = 2 ^ k - 1 by omega,
    Nat.and_two_pow_sub_one_eq_mod]

theorem index_of_le {a : Arena} {address : UInt32} (h : address.toNat ≤ a.mask.toNat) :
    a.index address = address.toNat := by
  rw [index_eq_mod]
  exact Nat.mod_eq_of_lt (by omega)

theorem load4_eq (a : Arena) (address : UInt32) :
    a.load4 address = Bytes.wordAt a.bytes (a.index address) := by
  have h := a.index_add_four_le address
  rw [load4, Bytes.wordAt, Bytes.byteAt_of_lt (by omega), Bytes.byteAt_of_lt (by omega),
    Bytes.byteAt_of_lt (by omega), Bytes.byteAt_of_lt (by omega)]

/-- Storing the word that is there changes nothing. -/
theorem store4_load4 (a : Arena) (address : UInt32) : a.store4 address (a.load4 address) = a := by
  rw [load4_eq]
  simp only [store4, withBytes, Bytes.setWord_wordAt]

@[simp] theorem mask_withBytes (a : Arena) (b : ByteArray) (h : b.size = a.bytes.size) :
    (a.withBytes b h).mask = a.mask := rfl

/-- What fits is written as it is. -/
theorem bytes_write {a : Arena} {offset : Nat} {s : ByteArray}
    (h : offset + s.size ≤ a.bytes.size) :
    (a.write offset s).bytes = Bytes.overwrite a.bytes offset s := by
  rw [write, dif_pos h]
  rfl

@[simp] theorem mask_write (a : Arena) (offset : Nat) (s : ByteArray) :
    (a.write offset s).mask = a.mask := by
  rw [write]
  split
  · exact mask_withBytes ..
  · dsimp only
    split
    · exact mask_withBytes ..
    · rfl

/-- What fits takes the place of what was there. -/
theorem toBytes_write {a : Arena} {offset : Nat} {s : ByteArray}
    (h : offset + s.size ≤ a.bytes.size) :
    Bytes.toBytes (a.write offset s).bytes = (Bytes.toBytes a.bytes).take offset
      ++ (Bytes.toBytes s ++ (Bytes.toBytes a.bytes).drop (offset + s.size)) := by
  rw [bytes_write h, Bytes.toBytes_overwrite]

theorem toBytes_read (a : Arena) (offset length : Nat) :
    Bytes.toBytes (a.read offset length)
      = ((Bytes.toBytes a.bytes).drop offset).take length := by
  rw [read, Bytes.toBytes_extract, List.drop_take, Nat.add_sub_cancel_left]

/-- Arenas of one size are equal if their bytes are. -/
theorem ext_toBytes {a b : Arena} (hmask : a.mask = b.mask)
    (hbytes : Bytes.toBytes a.bytes = Bytes.toBytes b.bytes) : a = b := by
  obtain ⟨bytes, mask, _, _⟩ := a
  obtain ⟨bytes', mask', _, _⟩ := b
  obtain rfl : mask = mask' := hmask
  obtain rfl : bytes = bytes' := Bytes.toBytes_inj.mp hbytes
  rfl

/-- A range needs no masking when its end lies below the size. -/
theorem inRange_iff {a : Arena} {address length : UInt32} :
    a.inRange address length = true ↔ address.toNat + length.toNat ≤ a.mask.toNat := by
  have hlt := a.toNat_mask_lt
  have masked : ∀ x : UInt32, x &&& a.mask = x ↔ x.toNat ≤ a.mask.toNat := by
    intro x
    rw [← UInt32.toNat_inj]
    exact ⟨fun h => h ▸ a.index_le x, index_of_le⟩
  have hsum := UInt32.toNat_add address length
  have := address.toNat_lt
  have := length.toNat_lt
  simp only [inRange, Bool.and_eq_true, beq_iff_eq, decide_eq_true_eq, masked,
    UInt32.le_iff_toNat_le, hsum]
  omega

/-! ## Words -/

theorem toNat_size (a : Arena) : a.size.toNat = a.mask.toNat + 1 := by
  have hlt := a.toNat_mask_lt
  rw [size, UInt32.toNat_add, UInt32.toNat_one, Nat.mod_eq_of_lt (by omega)]

/-- Addresses wrap around at the size of the arena, wherever they wrap around as words. -/
theorem index_add (a : Arena) (address : UInt32) (n : Nat) :
    a.index (address + UInt32.ofNat n) = (address.toNat + n) % (a.mask.toNat + 1) := by
  obtain ⟨k, hk, hmask⟩ := a.exists_mask_eq
  have hdvd : 2 ^ k ∣ 2 ^ 32 := Nat.pow_dvd_pow 2 (by omega)
  rw [index_eq_mod, hmask, UInt32.toNat_add, UInt32.toNat_ofNat', Nat.add_mod_mod,
    Nat.mod_mod_of_dvd _ hdvd]

/-- An address stands for itself as long as it is in the arena. -/
theorem index_add_of_le {a : Arena} {address : UInt32} {n : Nat}
    (h : address.toNat + n ≤ a.mask.toNat) :
    a.index (address + UInt32.ofNat n) = address.toNat + n := by
  rw [index_add, Nat.mod_eq_of_lt (Nat.lt_succ_of_le h)]

/-- Two words have no byte of the buffer in common. -/
def Apart (a : Arena) (x y : UInt32) : Prop :=
  a.index x + 4 ≤ a.index y ∨ a.index y + 4 ≤ a.index x

/-- A byte of the buffer belongs to the word at an address. -/
def Covers (a : Arena) (address : UInt32) (j : Nat) : Prop :=
  a.index address ≤ j ∧ j < a.index address + 4

theorem Apart.symm {a : Arena} {x y : UInt32} (h : a.Apart x y) : a.Apart y x :=
  Or.symm h

/-- Where words lie depends on the mask only. -/
theorem Apart.congr {a b : Arena} {x y : UInt32} (h : a.Apart x y) (hmask : b.mask = a.mask) :
    b.Apart x y := by
  rwa [Apart, index, index, hmask]

theorem covers_congr {a b : Arena} {address : UInt32} {j : Nat} (hmask : b.mask = a.mask) :
    b.Covers address j ↔ a.Covers address j := by
  rw [Covers, Covers, index, index, hmask]

theorem load4_store4 (a : Arena) (address x : UInt32) :
    (a.store4 address x).load4 address = x := by
  rw [load4_eq]
  exact Bytes.wordAt_setWord (a.index_add_four_le address)

theorem byteAt_store4_of_not_covers {a : Arena} {address x : UInt32} {j : Nat}
    (h : ¬a.Covers address j) :
    Bytes.byteAt (a.store4 address x).bytes j = Bytes.byteAt a.bytes j := by
  refine Bytes.byteAt_setWord_of_outside (a.index_add_four_le address) ?_
  rw [Covers] at h
  omega

/-! ### Ranges of the buffer -/

/-- Two arenas of one size have the same bytes outside a range of the buffer. -/
structure AgreesOutside (start stop : Nat) (a b : Arena) : Prop where
  /-- The size is the same. -/
  mask : b.mask = a.mask
  /-- So are the bytes on both sides of the range. -/
  byte : ∀ j, j < start ∨ stop ≤ j → Bytes.byteAt b.bytes j = Bytes.byteAt a.bytes j

namespace AgreesOutside

variable {a b c : Arena} {start stop start' stop' : Nat}

theorem refl (a : Arena) : AgreesOutside start stop a a :=
  ⟨rfl, fun _ _ => rfl⟩

theorem trans (h : AgreesOutside start stop a b) (h' : AgreesOutside start stop b c) :
    AgreesOutside start stop a c :=
  ⟨h'.mask.trans h.mask, fun j hj => (h'.byte j hj).trans (h.byte j hj)⟩

theorem mono (h : AgreesOutside start stop a b) (hstart : start' ≤ start) (hstop : stop ≤ stop') :
    AgreesOutside start' stop' a b :=
  ⟨h.mask, fun j hj => h.byte j (by omega)⟩

/-- A word that is stored in the range. -/
theorem store4 (a : Arena) {address : UInt32} (w : UInt32) (hstart : start ≤ a.index address)
    (hstop : a.index address + 4 ≤ stop) : AgreesOutside start stop a (a.store4 address w) :=
  ⟨rfl, fun j hj => byteAt_store4_of_not_covers fun ⟨hle, hlt⟩ => by omega⟩

/-- A word beside the range. -/
theorem load4 (h : AgreesOutside start stop a b) {address : UInt32}
    (hapart : a.index address + 4 ≤ start ∨ stop ≤ a.index address) :
    b.load4 address = a.load4 address := by
  have hindex : b.index address = a.index address := by rw [index, index, h.mask]
  have hbyte : ∀ k < 4, Bytes.byteAt b.bytes (a.index address + k)
      = Bytes.byteAt a.bytes (a.index address + k) := fun k hk => h.byte _ (by omega)
  have hfirst := hbyte 0 (by omega)
  rw [Nat.add_zero] at hfirst
  rw [load4_eq, load4_eq, hindex, Bytes.wordAt, hfirst, hbyte 1 (by omega), hbyte 2 (by omega),
    hbyte 3 (by omega), Bytes.wordAt]

/-- The bytes of a stretch beside the range. -/
theorem take_drop_toBytes (h : AgreesOutside start stop a b) {i n : Nat}
    (hapart : i + n ≤ start ∨ stop ≤ i) :
    ((Bytes.toBytes b.bytes).drop i).take n = ((Bytes.toBytes a.bytes).drop i).take n := by
  have hsize : b.bytes.size = a.bytes.size := by rw [b.size_bytes, a.size_bytes, h.mask]
  refine List.ext_getElem (by simp [hsize]) fun k hk hk' => ?_
  rw [List.length_take, List.length_drop] at hk hk'
  have hbyte := h.byte (i + k) (by omega)
  rw [Bytes.byteAt_eq, Bytes.byteAt_eq, List.getElem?_eq_getElem (by omega),
    List.getElem?_eq_getElem (by omega)] at hbyte
  rw [List.getElem_take, List.getElem_take, List.getElem_drop, List.getElem_drop]
  exact hbyte

/-- The bytes in front of the range. -/
theorem take_toBytes (h : AgreesOutside start stop a b) :
    (Bytes.toBytes b.bytes).take start = (Bytes.toBytes a.bytes).take start := by
  have hfront := h.take_drop_toBytes (i := 0) (n := start) (.inl (by omega))
  rwa [List.drop_zero, List.drop_zero] at hfront

/-- A range whose bytes are replaced by as many others. -/
theorem of_toBytes {s : List UInt8} (hmask : b.mask = a.mask) (hstart : start ≤ a.bytes.size)
    (hstop : start + s.length = stop)
    (hbytes : Bytes.toBytes b.bytes
      = (Bytes.toBytes a.bytes).take start ++ (s ++ (Bytes.toBytes a.bytes).drop stop)) :
    AgreesOutside start stop a b := by
  have hfront : ((Bytes.toBytes a.bytes).take start).length = start := by
    rw [List.length_take, Bytes.length_toBytes]
    omega
  refine ⟨hmask, fun j hj => ?_⟩
  rw [Bytes.byteAt_eq, Bytes.byteAt_eq, hbytes]
  obtain hj | hj := hj
  · rw [List.getElem?_append_left (by omega), List.getElem?_take, if_pos hj]
  · rw [List.getElem?_append_right (by omega), List.getElem?_append_right (by omega),
      List.getElem?_drop]
    congr 2
    omega

end AgreesOutside

theorem load4_store4_of_apart {a : Arena} {x y w : UInt32} (h : a.Apart x y) :
    (a.store4 x w).load4 y = a.load4 y :=
  (AgreesOutside.store4 a w (Nat.le_refl _) (Nat.le_refl _)).load4 h.symm

/-- **Words of a frame are apart.** They may lie at any alignment, and they may wrap around at the
end of the arena. A word does not wrap around but goes on into the guard bytes, so it keeps its
distance from the words behind it as long as the frame does not come around to it again. -/
theorem apart_add (a : Arena) (address : UInt32) {i j : Nat} (hij : i < j)
    (h : 4 * (j - i) < a.size.toNat) :
    a.Apart (address + UInt32.ofNat (4 * i)) (address + UInt32.ofNat (4 * j)) := by
  obtain ⟨k, hk, hmask⟩ := a.exists_mask_eq
  rw [toNat_size] at h
  have hfour : 4 ∣ a.mask.toNat + 1 := by
    rw [hmask]
    refine Nat.pow_dvd_pow 2 (m := 2) ?_
    by_contra hlt
    have : 2 ^ k ≤ 2 ^ 1 := Nat.pow_le_pow_right (by omega) (by omega)
    omega
  rw [Apart, index_add, index_add]
  generalize a.mask.toNat + 1 = n at *
  obtain ⟨d, rfl⟩ := Nat.exists_eq_add_of_lt hij
  have hi := Nat.mod_lt (address.toNat + 4 * i) (show 0 < n by omega)
  rw [show address.toNat + 4 * (i + d + 1) = address.toNat + 4 * i + 4 * (d + 1) by omega,
    Nat.add_mod (address.toNat + 4 * i), Nat.mod_eq_of_lt (show 4 * (d + 1) < n by omega)]
  generalize (address.toNat + 4 * i) % n = r at *
  obtain ⟨q, rfl⟩ := hfour
  by_cases hwrap : r + 4 * (d + 1) < 4 * q
  · rw [Nat.mod_eq_of_lt hwrap]
    omega
  · rw [Nat.mod_eq_sub_mod (by omega), Nat.mod_eq_of_lt (by omega)]
    omega

end Arena

/-! ## Checked accesses -/

namespace Checked

/-- A masked access of `n` bytes lies in the buffer. -/
def access (a : Arena) (address : UInt32) (n : Nat) : Except Violation Unit :=
  range a.bytes (a.index address) (a.index address + n)

/-- **Every masked access of at most a word lies in the buffer.** -/
theorem access_eq_ok (a : Arena) (address : UInt32) {n : Nat} (h : n ≤ 4) :
    access a address n = .ok () := by
  have := a.index_add_four_le address
  exact range_eq_ok (by omega) (by omega) (by omega)

/-- Writes a word at a masked address. -/
def store4 (a : Arena) (address x : UInt32) : Except Violation Arena := do
  access a address 4
  return a.store4 address x

@[simp] theorem store4_eq_ok (a : Arena) (address x : UInt32) :
    store4 a address x = .ok (a.store4 address x) := by
  rw [store4, access_eq_ok a address (Nat.le_refl _)]
  rfl

end Checked

end BytecodeHost
