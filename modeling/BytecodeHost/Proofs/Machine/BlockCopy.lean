import BytecodeHost.Proofs.Arena.Access
import BytecodeHost.Proofs.Machine.Trap

/-!
# Ranges and block copies

Ranges are the only addresses that are not masked. The check compares three masked words with what
they were before, one of them a sum that may have wrapped around; that it amounts to one comparison
of integers rests on the mask being one less than a power of two, and on the size being less than
half of what a word can hold.

A copy reads its source before it writes anything. What that means for ranges that overlap is said
by two loops that move one byte after the other, with a load and a store for each. They see what
they have written themselves, so the one that starts at the front has to move bytes down, and the
other one up.

## Main definitions

* `Arena.Moves` — an arena after the move of a range, byte by byte
* `Arena.copyFromFront`, `Arena.copyFromBack` — moving a range in place

## Main results

* `Arena.validRange_eq_ok_iff` — a range is valid if its end lies below the size
* `Arena.moves_moveBytes` — a copy moves its range
* `Arena.moves_copyFromFront`, `Arena.moves_copyFromBack` — so do the loops
* `Arena.blockCopy_exact` — when a copy succeeds, and what it leaves behind
-/

namespace BytecodeHost

namespace Arena

/-! ## Ranges -/

theorem inRange_iff_lt_size {a : Arena} {address length : UInt32} :
    a.inRange address length = true ↔ address.toNat + length.toNat < a.size.toNat := by
  rw [inRange_iff, toNat_size]
  omega

/-- **A range is valid if its end lies below the size**, as integers. -/
theorem validRange_eq_ok_iff {a : Arena} {address length : UInt32} :
    a.validRange address length = .ok () ↔ address.toNat + length.toNat < a.size.toNat := by
  rw [validRange, ← inRange_iff_lt_size]
  split
  · exact iff_of_true rfl ‹_›
  · exact iff_of_false (fun h => nomatch h) ‹_›

theorem size_read {a : Arena} {offset length : Nat} (h : offset + length ≤ a.bytes.size) :
    (a.read offset length).size = length := by
  rw [← Bytes.length_toBytes, toBytes_read, List.length_take, List.length_drop,
    Bytes.length_toBytes]
  omega

theorem le_size_bytes_of_lt_size {a : Arena} {n : Nat} (h : n < a.size.toNat) :
    n ≤ a.bytes.size := by
  rw [toNat_size] at h
  rw [a.size_bytes]
  omega

/-! ## Moves -/

/-- A range of the buffer has the bytes that another range had, and the other bytes are the same. -/
structure Moves (dst src length : Nat) (a b : Arena) : Prop where
  /-- The size is the same. -/
  mask : b.mask = a.mask
  /-- The bytes of the range are moved there. -/
  byte : ∀ j, Bytes.byteAt b.bytes j
    = if dst ≤ j ∧ j < dst + length then Bytes.byteAt a.bytes (src + (j - dst))
      else Bytes.byteAt a.bytes j

/-- There is one way to move a range. -/
theorem Moves.unique {dst src length : Nat} {a b c : Arena} (h : Moves dst src length a b)
    (h' : Moves dst src length a c) : b = c := by
  have hsize : b.bytes.size = c.bytes.size := by
    rw [b.size_bytes, c.size_bytes, h.mask, h'.mask]
  refine ext_toBytes (h.mask.trans h'.mask.symm) (congrArg Bytes.toBytes ?_)
  exact Bytes.ext_byteAt hsize fun j _ => (h.byte j).trans (h'.byte j).symm

variable {a : Arena} {dst src length : UInt32}

section

variable (hdst : dst.toNat + length.toNat < a.size.toNat)
  (hsrc : src.toNat + length.toNat < a.size.toNat)
include hdst hsrc

theorem toBytes_moveBytes :
    Bytes.toBytes (a.moveBytes dst src length).bytes = (Bytes.toBytes a.bytes).take dst.toNat
      ++ (((Bytes.toBytes a.bytes).drop src.toNat).take length.toNat
        ++ (Bytes.toBytes a.bytes).drop (dst.toNat + length.toNat)) := by
  have hread := size_read (le_size_bytes_of_lt_size hsrc)
  rw [moveBytes, toBytes_write (by rw [hread]; exact le_size_bytes_of_lt_size hdst), toBytes_read,
    hread]

/-- A copy moves its range. -/
theorem moves_moveBytes :
    Moves dst.toNat src.toNat length.toNat a (a.moveBytes dst src length) := by
  have hread := size_read (le_size_bytes_of_lt_size hsrc)
  have hroom : dst.toNat + (a.read src.toNat length.toNat).size ≤ a.bytes.size := by
    rw [hread]
    exact le_size_bytes_of_lt_size hdst
  refine ⟨mask_write .., fun j => ?_⟩
  rw [moveBytes, bytes_write hroom, Bytes.byteAt_overwrite hroom, hread]
  split
  · rw [read, Bytes.byteAt_extract (by omega)]
  · rfl

end

/-! ## Moving bytes in place -/

/-- Moves a range one byte after the other, the first one first. -/
def copyFromFront (a : Arena) (dst src : UInt32) : Nat → Arena
  | 0 => a
  | n + 1 =>
    let b := copyFromFront a dst src n
    b.store1 (dst + UInt32.ofNat n) (b.load1 (src + UInt32.ofNat n))

/-- Moves a range one byte after the other, the last one first. -/
def copyFromBack (a : Arena) (dst src : UInt32) : Nat → Arena
  | 0 => a
  | n + 1 =>
    copyFromBack (a.store1 (dst + UInt32.ofNat n) (a.load1 (src + UInt32.ofNat n))) dst src n

/-- A byte of a range that is moved to another range, when the byte is loaded and stored. -/
theorem byteAt_store1_load1 {a : Arena} {dst src : UInt32} {n : Nat}
    (hdst : dst.toNat + n < a.size.toNat) (hsrc : src.toNat + n < a.size.toNat) (j : Nat) :
    Bytes.byteAt (a.store1 (dst + UInt32.ofNat n) (a.load1 (src + UInt32.ofNat n))).bytes j
      = if j = dst.toNat + n then Bytes.byteAt a.bytes (src.toNat + n)
        else Bytes.byteAt a.bytes j := by
  rw [toNat_size] at hdst hsrc
  rw [load1_eq, index_add_of_le (Nat.le_of_lt_succ hsrc)]
  rw [← index_add_of_le (Nat.le_of_lt_succ hdst)]
  exact Bytes.byteAt_set _ j

/-- Moving a range down from the front never reads a byte that it has written. -/
theorem moves_copyFromFront {n : Nat} (hle : dst ≤ src) (hdst : dst.toNat + n < a.size.toNat)
    (hsrc : src.toNat + n < a.size.toNat) :
    Moves dst.toNat src.toNat n a (a.copyFromFront dst src n) := by
  rw [UInt32.le_iff_toNat_le] at hle
  induction n with
  | zero => exact ⟨rfl, fun j => (if_neg (by omega)).symm⟩
  | succ n ih =>
    obtain ⟨hmask, hbyte⟩ := ih (by omega) (by omega)
    have hsize : (a.copyFromFront dst src n).size = a.size := by rw [size, hmask, ← size]
    refine ⟨hmask, fun j => ?_⟩
    rw [copyFromFront, byteAt_store1_load1 (by rw [hsize]; omega) (by rw [hsize]; omega), hbyte,
      hbyte, if_neg (show ¬(dst.toNat ≤ src.toNat + n ∧ src.toNat + n < dst.toNat + n) by omega)]
    by_cases hlast : j = dst.toNat + n
    · rw [if_pos hlast, if_pos (by omega)]
      congr 1
      omega
    · rw [if_neg hlast]
      congr 1
      exact propext ⟨fun h => by omega, fun h => by omega⟩

/-- Moving a range up from the back never reads a byte that it has written. -/
theorem moves_copyFromBack {n : Nat} (hle : src ≤ dst) (hdst : dst.toNat + n < a.size.toNat)
    (hsrc : src.toNat + n < a.size.toNat) :
    Moves dst.toNat src.toNat n a (a.copyFromBack dst src n) := by
  rw [UInt32.le_iff_toNat_le] at hle
  induction n generalizing a with
  | zero => exact ⟨rfl, fun j => (if_neg (by omega)).symm⟩
  | succ n ih =>
    obtain ⟨hmask, hbyte⟩ :=
      ih (a := a.store1 (dst + UInt32.ofNat n) (a.load1 (src + UInt32.ofNat n)))
        (Nat.lt_of_succ_lt hdst) (Nat.lt_of_succ_lt hsrc)
    have hstored := byteAt_store1_load1 (Nat.lt_of_succ_lt hdst) (Nat.lt_of_succ_lt hsrc)
    refine ⟨hmask, fun j => ?_⟩
    rw [copyFromBack, hbyte, hstored, hstored]
    by_cases hinside : dst.toNat ≤ j ∧ j < dst.toNat + n
    · rw [if_pos hinside, if_neg (by omega), if_pos (by omega)]
    · rw [if_neg hinside]
      by_cases hlast : j = dst.toNat + n
      · rw [if_pos hlast, if_pos (by omega)]
        congr 1
        omega
      · rw [if_neg hlast, if_neg (by omega)]

/-! ## Block copies -/

/-- A copy that succeeds was checked on both sides. -/
theorem blockCopy_eq_ok_iff {b : Arena} :
    a.blockCopy dst src length = .ok b ↔
      (a.validRange dst length = .ok () ∧ a.validRange src length = .ok ()) ∧
        a.moveBytes dst src length = b := by
  rw [validRange_eq_ok_iff, validRange_eq_ok_iff, ← inRange_iff_lt_size, ← inRange_iff_lt_size,
    ← Bool.and_eq_true, blockCopy]
  split
  · rename_i hrange
    rw [Except.ok.injEq, and_iff_right hrange]
  · rename_i hrange
    exact iff_of_false (fun h => nomatch h) fun h => hrange h.1

end Arena

/-- The copying instruction copies a block, or it fails and leaves the arena as it is. -/
theorem step_blockCopy {p : Program} (count : Int32) {r : Registers} {a : Arena} {w : UInt32}
    (hop : p.HasOpcode r.pc .blockCopy) (hoperand : p.code[(r.pc + 1).toNat]? = some w) :
    step p count r a
      = match a.blockCopy r.operands.second r.operands.first w with
        | .ok b => .next ⟨r.pc + 1 + 1, r.frame, r.operands.drop 2⟩ b
        | .error e => .fault (.blockCopy e) a := by
  rw [step_of_hasOpcode count hop, execute, Opcode.shape]
  dsimp only
  rw [withImmediate, hoperand, Arena.blockCopy]
  dsimp only
  split <;> rfl

namespace Arena

/-- **Block copies are exact**, in every arena and for all words. A range is valid if the sum of its
address and its length, as integers, is less than the size. A copy succeeds if both of its ranges
are valid. Then the bytes of the source, as they were before, are in the place of those of the
destination, and all others are the same, whether the ranges overlap or not; moving the bytes one
after the other comes to the same, from the front to a lower address and from the back to a higher
one. A copying instruction goes on with that arena, and if the copy fails it stops with the arena as
it was. -/
theorem blockCopy_exact (a : Arena) (dst src length : UInt32) :
    (∀ address, a.validRange address length = .ok () ↔
      address.toNat + length.toNat < a.size.toNat) ∧
    ((∃ b, a.blockCopy dst src length = .ok b) ↔
      a.validRange dst length = .ok () ∧ a.validRange src length = .ok ()) ∧
    (∀ b, a.blockCopy dst src length = .ok b → b.mask = a.mask ∧
      Bytes.toBytes b.bytes = (Bytes.toBytes a.bytes).take dst.toNat
        ++ (((Bytes.toBytes a.bytes).drop src.toNat).take length.toNat
          ++ (Bytes.toBytes a.bytes).drop (dst.toNat + length.toNat)) ∧
      (dst ≤ src → b = a.copyFromFront dst src length.toNat) ∧
      (src ≤ dst → b = a.copyFromBack dst src length.toNat)) ∧
    ∀ (p : Program) (count : Int32) (r : Registers), p.HasOpcode r.pc .blockCopy →
      p.code[(r.pc + 1).toNat]? = some length → r.operands.second = dst →
      r.operands.first = src →
      (∀ b, a.blockCopy dst src length = .ok b →
        step p count r a = .next ⟨r.pc + 1 + 1, r.frame, r.operands.drop 2⟩ b) ∧
      ∀ e, a.blockCopy dst src length = .error e → step p count r a = .fault (.blockCopy e) a := by
  refine ⟨fun address => validRange_eq_ok_iff, ⟨fun ⟨b, h⟩ => (blockCopy_eq_ok_iff.mp h).1,
    fun h => ⟨_, blockCopy_eq_ok_iff.mpr ⟨h, rfl⟩⟩⟩, fun b h => ?_, ?_⟩
  · obtain ⟨⟨hdst, hsrc⟩, rfl⟩ := blockCopy_eq_ok_iff.mp h
    rw [validRange_eq_ok_iff] at hdst hsrc
    have hmoves := moves_moveBytes hdst hsrc
    exact ⟨hmoves.mask, toBytes_moveBytes hdst hsrc,
      fun hle => hmoves.unique (moves_copyFromFront hle hdst hsrc),
      fun hle => hmoves.unique (moves_copyFromBack hle hdst hsrc)⟩
  · rintro p count r hop hoperand rfl rfl
    rw [step_blockCopy count hop hoperand]
    exact ⟨fun b h => by rw [h], fun e h => by rw [h]⟩

/-- A program that copies four bytes. -/
def copyingProgram : Program :=
  ⟨#[Opcode.blockCopy.toByte.toUInt32, 4, 0], #[0, 2]⟩

/-- Four bytes are moved up by two onto a range that they overlap, and up to the last address they
are not moved at all. -/
theorem blockCopy_exact_overlapping :
    (∃ b : Arena, step copyingProgram 1 ⟨0, 0, (Operands.initial.push 3).push 1⟩ ascending
        = .next ⟨2, 0, ((Operands.initial.push 3).push 1).drop 2⟩ b ∧
      b = ascending.copyFromBack 3 1 4 ∧
      Bytes.toBytes b.bytes = [0, 1, 2, 1, 2, 3, 4, 7, 8, 9, 10, 11]) ∧
      step copyingProgram 1 ⟨0, 0, (Operands.initial.push 4).push 1⟩ ascending
        = .fault (.blockCopy (.copy 4 1 4)) ascending := by
  obtain ⟨hvalid, hsucceeds, hcopied, hstep⟩ := ascending.blockCopy_exact 3 1 4
  obtain ⟨b, hb⟩ := hsucceeds.mpr ⟨(hvalid 3).mpr (by decide), (hvalid 1).mpr (by decide)⟩
  obtain ⟨-, hbytes, -, hback⟩ := hcopied b hb
  refine ⟨⟨b, ?_, hback (by decide), hbytes.trans (by decide +kernel)⟩, ?_⟩
  · exact (hstep copyingProgram 1 ⟨0, 0, (Operands.initial.push 3).push 1⟩ ⟨_, rfl, rfl⟩ rfl
      (by decide +kernel) (by decide +kernel)).1 b hb
  · exact ((ascending.blockCopy_exact 4 1 4).2.2.2 copyingProgram 1
      ⟨0, 0, (Operands.initial.push 4).push 1⟩ ⟨_, rfl, rfl⟩ rfl (by decide +kernel)
      (by decide +kernel)).2 _ rfl

end Arena

end BytecodeHost
