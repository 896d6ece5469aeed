import Mathlib.Data.Nat.Digits.Defs
import BytecodeHost.Proofs.Arena

/-!
# Loads and stores

The three widths of a load and of a store are one operation each, over a stretch of the buffer that
starts at the masked address. A load reads the stretch as a number, least significant byte first,
and a store puts as many bytes of a word in its place. Nothing else about widths is used: what is
read after a write follows from these two facts for all pairs of widths at once.

A stretch starts at the masked address but does not wrap around. At the end of the arena it goes on
into the guard bytes, which no address names and which are therefore reached in this way only. So
whether two accesses meet is a question about stretches and not about addresses.

## Main definitions

* `Width` — how much an access reads or writes
* `Arena.load`, `Arena.store` — loads and stores of any width
* `Arena.stretch` — the bytes of the buffer that an access is about

## Main results

* `Arena.toNat_load` — a load reads its stretch as a little-endian number
* `Arena.toBytes_store` — a store replaces its stretch
* `Arena.access_algebra` — masking, read after write, and what a write leaves alone
-/

namespace BytecodeHost

/-! ## Widths -/

/-- How much an access reads or writes. -/
inductive Width where
  /-- A byte. -/
  | one
  /-- Two bytes. -/
  | two
  /-- A word. -/
  | four

namespace Width

/-- The number of bytes. -/
def count : Width → Nat
  | one => 1
  | two => 2
  | four => 4

theorem count_le (w : Width) : w.count ≤ 4 := by
  cases w <;> decide

/-- As many bytes of a word, the least significant first. -/
def bytesOf (w : Width) (x : UInt32) : List UInt8 :=
  (Bytes.littleEndian x).take w.count

@[simp] theorem length_bytesOf (w : Width) (x : UInt32) : (w.bytesOf x).length = w.count := by
  cases w <;> rfl

theorem bytesOf_one (x : UInt32) : one.bytesOf x = [x.toUInt8] := by
  have hzero : Bytes.wordByte x 0 = x.toUInt8 := by
    rw [Bytes.wordByte, show (8 * 0 : UInt32) = 0 from rfl, UInt32.shiftRight_zero]
  rw [← hzero]
  rfl

theorem bytesOf_two (x : UInt32) :
    two.bytesOf x = [x.toUInt16.toUInt8, (x.toUInt16 >>> 8).toUInt8] := by
  have h₀ : (Bytes.wordByte x 0).toNat = _ := Bytes.toNat_wordByte x (k := 0) (by omega)
  have h₁ : (Bytes.wordByte x 1).toNat = _ := Bytes.toNat_wordByte x (k := 1) (by omega)
  have hlow : Bytes.wordByte x 0 = x.toUInt16.toUInt8 := by
    rw [← UInt8.toNat_inj, h₀]
    simp
  have hhigh : Bytes.wordByte x 1 = (x.toUInt16 >>> 8).toUInt8 := by
    rw [← UInt8.toNat_inj, h₁]
    simp [Nat.shiftRight_eq_div_pow]
    omega
  rw [← hlow, ← hhigh]
  rfl

end Width

/-- The number that some bytes stand for, the least significant first. -/
def Bytes.number (s : List UInt8) : Nat :=
  Nat.ofDigits 256 (s.map UInt8.toNat)

/-- The bytes of a width stand for a word that is cut to that width. -/
theorem Width.number_bytesOf (w : Width) (x : UInt32) :
    Bytes.number (w.bytesOf x) = x.toNat % 2 ^ (8 * w.count) := by
  have h₀ : (Bytes.wordByte x 0).toNat = _ := Bytes.toNat_wordByte x (k := 0) (by omega)
  have h₁ : (Bytes.wordByte x 1).toNat = _ := Bytes.toNat_wordByte x (k := 1) (by omega)
  have h₂ : (Bytes.wordByte x 2).toNat = _ := Bytes.toNat_wordByte x (k := 2) (by omega)
  have h₃ : (Bytes.wordByte x 3).toNat = _ := Bytes.toNat_wordByte x (k := 3) (by omega)
  cases w <;>
    simp only [Bytes.number, bytesOf, Bytes.littleEndian, count, List.take_succ_cons,
      List.take_zero, List.map_cons, List.map_nil, Nat.ofDigits_cons, Nat.ofDigits_nil, h₀, h₁, h₂,
      h₃] <;>
    omega

namespace Arena

/-! ## Accesses of any width -/

/-- What is read at an address, as a word. -/
def load (a : Arena) (w : Width) (address : UInt32) : UInt32 :=
  match w with
  | .one => (a.load1 address).toUInt32
  | .two => (a.load2 address).toUInt32
  | .four => a.load4 address

/-- Writes as much of a word as the width says. -/
def store (a : Arena) (w : Width) (address x : UInt32) : Arena :=
  match w with
  | .one => a.store1 address x.toUInt8
  | .two => a.store2 address x.toUInt16
  | .four => a.store4 address x

/-- The bytes of the buffer from the masked address on, as many as the width says. -/
def stretch (a : Arena) (w : Width) (address : UInt32) : List UInt8 :=
  ((Bytes.toBytes a.bytes).drop (address.toNat % a.size.toNat)).take w.count

variable (a : Arena) (w : Width) (address x : UInt32)

theorem index_eq_mod_size : a.index address = address.toNat % a.size.toNat := by
  rw [index_eq_mod, toNat_size]

theorem index_mod_size : a.index (address % a.size) = a.index address := by
  rw [index_eq_mod_size, index_eq_mod_size, UInt32.toNat_mod, Nat.mod_mod]

theorem index_add_count_le : a.index address + w.count ≤ a.bytes.size :=
  Nat.le_trans (Nat.add_le_add_left w.count_le _) (a.index_add_four_le address)

theorem length_take_index :
    ((Bytes.toBytes a.bytes).take (a.index address)).length = a.index address := by
  have h := a.index_add_four_le address
  rw [List.length_take, Bytes.length_toBytes]
  omega

@[simp] theorem length_stretch : (a.stretch w address).length = w.count := by
  have h := a.index_add_count_le w address
  rw [stretch, ← index_eq_mod_size, List.length_take, List.length_drop, Bytes.length_toBytes]
  omega

@[simp] theorem mask_store : (a.store w address x).mask = a.mask := by
  cases w <;> rfl

theorem load1_eq : a.load1 address = Bytes.byteAt a.bytes (a.index address) :=
  (Bytes.byteAt_of_lt _).symm

theorem toNat_load2 :
    (a.load2 address).toNat = (Bytes.byteAt a.bytes (a.index address)).toNat
      + 256 * (Bytes.byteAt a.bytes (a.index address + 1)).toNat := by
  have h := a.index_add_four_le address
  rw [load2, ← Bytes.byteAt_of_lt (by omega), ← Bytes.byteAt_of_lt (by omega)]
  generalize Bytes.byteAt a.bytes (a.index address) = low
  generalize Bytes.byteAt a.bytes (a.index address + 1) = high
  have hlow := low.toNat_lt
  have hhigh := high.toNat_lt
  simp only [UInt16.toNat_or, UInt16.toNat_shiftLeft, UInt8.toNat_toUInt16, UInt16.reduceToNat,
    Nat.reduceMod]
  -- the shifted byte does not overflow, and it has no bit in common with the other one
  rw [Nat.mod_eq_of_lt (by rw [Nat.shiftLeft_eq]; omega), Nat.or_comm,
    ← Nat.shiftLeft_add_eq_or_of_lt hlow, Nat.shiftLeft_eq]
  omega

/-- **A load reads its stretch as a little-endian number.** -/
theorem toNat_load : (a.load w address).toNat = Bytes.number (a.stretch w address) := by
  have h := a.index_add_four_le address
  rw [stretch, ← index_eq_mod_size]
  cases w with
  | one =>
    rw [load, UInt8.toNat_toUInt32, load1_eq, Bytes.drop_eq_cons_of_lt (by omega)]
    simp [Bytes.number, Width.count]
  | two =>
    rw [load, UInt16.toNat_toUInt32, toNat_load2, Bytes.drop_eq_cons_of_lt (by omega),
      Bytes.drop_eq_cons_of_lt (by omega)]
    simp [Bytes.number, Width.count, Nat.ofDigits_cons]
  | four =>
    rw [load, load4_eq, Bytes.drop_eq_littleEndian_append h]
    exact ((Width.four.number_bytesOf _).trans (Nat.mod_eq_of_lt (UInt32.toNat_lt _))).symm

/-- **A store replaces its stretch.** -/
theorem toBytes_store :
    Bytes.toBytes (a.store w address x).bytes = (Bytes.toBytes a.bytes).take (a.index address)
      ++ (w.bytesOf x ++ (Bytes.toBytes a.bytes).drop (a.index address + w.count)) := by
  have h := a.index_add_four_le address
  have hfront := a.length_take_index address
  have hsplit := (List.take_append_drop (a.index address) (Bytes.toBytes a.bytes)).symm
  cases w with
  | one =>
    rw [Bytes.drop_eq_cons_of_lt (by omega)] at hsplit
    rw [Width.bytesOf_one]
    exact Bytes.toBytes_set_of_eq _ _ hfront hsplit
  | two =>
    rw [Bytes.drop_eq_cons_of_lt (by omega), Bytes.drop_eq_cons_of_lt (by omega)] at hsplit
    rw [Width.bytesOf_two]
    have hroom : a.index address + 2 ≤ a.bytes.size := by omega
    exact Bytes.toBytes_setPair _ _ hroom hfront hsplit
  | four =>
    rw [Bytes.drop_eq_littleEndian_append h] at hsplit
    exact Bytes.toBytes_setWord x h hfront hsplit rfl

/-! ## Read after write -/

theorem agreesOutside_store :
    AgreesOutside (a.index address) (a.index address + w.count) a (a.store w address x) := by
  refine .of_toBytes (a.mask_store w address x) ?_ ?_ (a.toBytes_store w address x)
  · have := a.index_add_four_le address
    omega
  · rw [Width.length_bytesOf]

theorem stretch_store : (a.store w address x).stretch w address = w.bytesOf x := by
  rw [stretch, size, mask_store, ← size, ← index_eq_mod_size, toBytes_store,
    List.drop_left' (a.length_take_index address), List.take_left' (w.length_bytesOf x)]

/-- What is read depends on the stretch only. -/
theorem load_congr {a b : Arena} {w : Width} {address address' : UInt32}
    (h : a.stretch w address = b.stretch w address') : a.load w address = b.load w address' := by
  rw [← UInt32.toNat_inj, toNat_load, toNat_load, h]

/-- What is written depends on the masked address only. -/
theorem store_mod_size : a.store w (address % a.size) x = a.store w address x := by
  refine ext_toBytes ((mask_store ..).trans (mask_store ..).symm) ?_
  rw [toBytes_store, toBytes_store, index_mod_size]

/-- A stretch beside the one that is written. -/
theorem stretch_store_of_apart {a : Arena} {w v : Width} {address other : UInt32} (x : UInt32)
    (h : a.index address + w.count ≤ a.index other ∨ a.index other + v.count ≤ a.index address) :
    (a.store w address x).stretch v other = a.stretch v other := by
  rw [stretch, stretch, size, mask_store, ← size, ← index_eq_mod_size]
  exact (a.agreesOutside_store w address x).take_drop_toBytes h.symm

/-- **The algebra of loads and stores**, for all widths, addresses and values. An access lies in the
buffer, guard bytes included, and is the access at the address modulo the size. A load after a store
at the same address gives what was stored, cut to the width. A store changes nothing but its stretch
of the buffer, so that a load of any width from a stretch that does not meet it gives what it gave
before. And a load gives the number that the bytes of its stretch are in base 256, the first of them
least significant, wherever the stretch lies. -/
theorem access_algebra (v : Width) (other : UInt32) :
    (a.bytes.size = a.size.toNat + 4 ∧ Checked.access a address w.count = .ok () ∧
      a.load w address = a.load w (address % a.size) ∧
      a.store w address x = a.store w (address % a.size) x) ∧
    ((a.store w address x).load w address).toNat = x.toNat % 2 ^ (8 * w.count) ∧
    AgreesOutside (address.toNat % a.size.toNat) (address.toNat % a.size.toNat + w.count) a
      (a.store w address x) ∧
    (address.toNat % a.size.toNat + w.count ≤ other.toNat % a.size.toNat ∨
        other.toNat % a.size.toNat + v.count ≤ address.toNat % a.size.toNat →
      (a.store w address x).load v other = a.load v other) ∧
    (a.stretch w address).length = w.count ∧
      (a.load w address).toNat
        = Nat.ofDigits 256 ((a.stretch w address).map UInt8.toNat) := by
  have hmasked : a.stretch w (address % a.size) = a.stretch w address := by
    rw [stretch, stretch, UInt32.toNat_mod, Nat.mod_mod]
  rw [← index_eq_mod_size, ← index_eq_mod_size]
  refine ⟨⟨?_, Checked.access_eq_ok a address w.count_le, load_congr hmasked.symm,
    (store_mod_size ..).symm⟩, ?_, agreesOutside_store .., fun hapart => ?_, length_stretch ..,
    toNat_load ..⟩
  · rw [a.size_bytes, toNat_size]
  · rw [toNat_load, stretch_store, Width.number_bytesOf]
  · exact load_congr (stretch_store_of_apart x hapart)

/-- Eight bytes, with guard bytes behind them that are not zero. -/
def ascending : Arena where
  bytes := ⟨#[0, 1, 2, 3, 4, 5, 6, 7, 8, 9, 10, 11]⟩
  mask := 7
  isPowerOfTwo := ⟨3, by decide, by decide⟩
  size_bytes := by decide

/-- A word that is stored at the last address goes into the guard bytes, and the two bytes in front
of it, named by an address past the end, are still there. -/
theorem access_algebra_guard :
    ((ascending.store .four 0xFFFFFFFF 0x01020304).load .four 0xFFFFFFFF).toNat = 0x01020304 ∧
      (ascending.store .four 0xFFFFFFFF 0x01020304).load .two 13 = ascending.load .two 13 ∧
      (ascending.load .two 13).toNat = 0x0605 := by
  obtain ⟨-, hsame, -, hother, -⟩ :=
    ascending.access_algebra .four 0xFFFFFFFF 0x01020304 .two 13
  obtain ⟨-, -, -, -, -, hload⟩ := ascending.access_algebra .two 13 0 .one 0
  exact ⟨hsame, hother (by decide), hload.trans (by decide +kernel)⟩

end Arena

end BytecodeHost
