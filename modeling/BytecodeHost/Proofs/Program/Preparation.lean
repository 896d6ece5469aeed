import BytecodeHost.Image.Load
import BytecodeHost.Proofs.Program.Layout

/-!
# Preparation loses nothing

A prepared program determines the bytes it was prepared from. The stream alone does not say where
its instructions start, and a branch operand no longer is what stood in the image; but the table
gives the starts, and it is strictly increasing, so a branch operand is the place of exactly one
index.

`Program.listing` reads the instructions back from stream and table, and `Program.bytes` writes
them as an image has them.

## Main definitions

* `Program.WellFormed` — how table, stream and instructions fit together
* `Program.listing`, `Program.bytes` — the instructions of a program, and their bytes

## Main results

* `Program.Linked.wellFormed`, `Program.Linked.listing_eq`
* `Program.prepare_wellFormed_lossless` — what preparation guarantees for every header and image
-/

namespace BytecodeHost

namespace Program

/-- The place that the table has for an index. -/
def offset (p : Program) (k : Nat) : UInt32 :=
  p.offsets.getD k 0

/-- How table, stream and instructions fit together. -/
structure WellFormed (p : Program) (I : Array Instruction) : Prop where
  /-- The table has one entry for each instruction and one for the end. -/
  size_offsets : p.offsets.size = I.size + 1
  /-- The first instruction is at the start. -/
  offset_zero : p.offset 0 = 0
  /-- The table is strictly increasing. -/
  offset_lt : ∀ j k, j < k → k ≤ I.size → p.offset j < p.offset k
  /-- An instruction takes two words if it has an immediate and one otherwise. -/
  offset_sub : ∀ (k : Nat) (h : k < I.size),
    p.offset (k + 1) - p.offset k = if I[k].op.hasImmediate then 2 else 1
  /-- The last entry is the place of the last word. -/
  offset_last : (p.offset I.size).toNat + 1 = p.code.size
  /-- The last word is zero. -/
  last : p.code.back? = some 0
  /-- At its place an instruction has its opcode. -/
  opcode : ∀ (k : Nat) (h : k < I.size),
    p.code[(p.offset k).toNat]? = some I[k].op.toByte.toUInt32
  /-- The operand of a branch is the place of its target and of no other index. -/
  target : ∀ (k : Nat) (h : k < I.size), I[k].op.isBranch = true →
    I[k].operand.toNat ≤ I.size ∧ ∀ t ≤ I.size,
      p.code[(p.offset k).toNat + 1]? = some (p.offset t) ↔ t = I[k].operand.toNat

/-- The instruction with a given index, read back from table and stream. -/
def instructionAt (p : Program) (k : Nat) : Instruction :=
  let pc := (p.offset k).toNat
  let op := (Opcode.ofByte? (p.code.getD pc 0).toUInt8).getD .undef
  let operand := if op.hasImmediate then p.code.getD (pc + 1) 0 else 0
  ⟨op, if op.isBranch then UInt32.ofNat (p.offsets.toList.idxOf operand) else operand⟩

/-- The instructions of a program. -/
def listing (p : Program) : List Instruction :=
  (List.range (p.offsets.size - 1)).map p.instructionAt

/-- The code section of a program. -/
def bytes (p : Program) : List UInt8 :=
  p.listing.flatMap Instruction.bytes

namespace Linked

variable {p : Program} {I : List Instruction}

theorem offset_eq (hp : p.Linked I) {k : Nat} (hk : k ≤ I.length) :
    p.offset k = UInt32.ofNat (place I k) :=
  hp.getD_offsets hk

theorem toNat_offset (hp : p.Linked I) {k : Nat} (hk : k ≤ I.length) :
    (p.offset k).toNat = place I k := by
  rw [hp.offset_eq hk, hp.toNat_ofNat_place hk]

theorem getElem_offsets (hp : p.Linked I) {k : Nat} (hk : k < p.offsets.toList.length) :
    p.offsets.toList[k] = UInt32.ofNat (place I k) := by
  have h := hp.offset k (by simpa [hp.size_offsets, Nat.lt_succ_iff] using hk)
  rw [← Array.getElem?_toList, List.getElem?_eq_getElem hk] at h
  exact Option.some.inj h

theorem nodup_offsets (hp : p.Linked I) : p.offsets.toList.Nodup := by
  rw [List.Nodup, List.pairwise_iff_getElem]
  intro j k hj hk hjk heq
  rw [hp.getElem_offsets hj, hp.getElem_offsets hk] at heq
  rw [Array.length_toList, hp.size_offsets] at hj hk
  have := hp.offset_inj (by omega) (by omega) heq
  omega

/-- A place in the table is found at its own index. -/
theorem idxOf_offset (hp : p.Linked I) {k : Nat} (hk : k ≤ I.length) :
    p.offsets.toList.idxOf (UInt32.ofNat (place I k)) = k := by
  have hlt : k < p.offsets.toList.length := by
    rw [Array.length_toList, hp.size_offsets]
    omega
  rw [← hp.getElem_offsets hlt, hp.nodup_offsets.idxOf_getElem]

theorem wellFormed {I : Array Instruction} (hp : p.Linked I.toList) : p.WellFormed I where
  size_offsets := hp.size_offsets
  offset_zero := hp.offset_eq (Nat.zero_le _)
  offset_lt j k hjk hk := by
    have hk : k ≤ I.toList.length := by simpa using hk
    rw [UInt32.lt_iff_toNat_lt, hp.toNat_offset (by omega), hp.toNat_offset hk]
    exact place_lt_place hjk hk
  offset_sub k hk := by
    have hk : k < I.toList.length := by simpa using hk
    rw [hp.offset_eq (by omega), hp.offset_eq (by omega), place_succ hk, UInt32.ofNat_add,
      UInt32.add_comm, UInt32.add_sub_cancel, Array.getElem_toList, Instruction.width]
    split <;> rfl
  offset_last := by
    rw [← Array.length_toList, hp.toNat_offset (Nat.le_refl _), hp.size_code]
  last := by
    rw [Array.back?_eq_getElem?, hp.size_code, Nat.add_sub_cancel, hp.pad]
  opcode k hk := by
    have hk : k < I.toList.length := by simpa using hk
    rw [hp.toNat_offset (by omega), hp.opcode k hk, Array.getElem_toList]
  target k hk hb := by
    have hk : k < I.toList.length := by simpa using hk
    rw [← Array.getElem_toList] at hb ⊢
    have hmem := List.getElem_mem hk
    have hle := (hp.hasTarget _ hmem).operand_le hb
    refine ⟨by simpa using hle, fun t ht => ?_⟩
    have ht : t ≤ I.toList.length := by simpa using ht
    rw [hp.toNat_offset (by omega), hp.operand k hk (Opcode.hasImmediate_of_isBranch hb),
      hp.linkedOperand_of_isBranch hmem hb, hp.offset_eq ht, Option.some.injEq]
    constructor
    · intro h
      exact (hp.offset_inj hle ht h).symm
    · intro h
      rw [h]

theorem instructionAt_eq (hp : p.Linked I) {k : Nat} (hk : k < I.length)
    (henc : I[k].Encodable) : p.instructionAt k = I[k] := by
  have hop : Opcode.ofByte? (p.code.getD (p.offset k).toNat 0).toUInt8 = some I[k].op := by
    rw [hp.toNat_offset (by omega), Array.getD_eq_getD_getElem?, hp.opcode k hk, Option.getD_some,
      UInt8.toUInt8_toUInt32, Opcode.ofByte?_toByte]
  simp only [instructionAt, hop, Option.getD_some]
  cases himm : I[k].op.hasImmediate with
  | false =>
    -- without an immediate the operand is zero, and there is no branch
    have hb : I[k].op.isBranch = false :=
      Bool.eq_false_iff.mpr fun hb => by simp [Opcode.hasImmediate_of_isBranch hb] at himm
    have hw : I[k].op.immediateWidth = 0 := by simpa [Opcode.hasImmediate] using himm
    rw [Instruction.Encodable, hw] at henc
    have hzero : I[k].operand = 0 := by
      rw [← UInt32.toNat_inj]
      exact Nat.lt_one_iff.mp henc
    simp only [hb, Bool.false_eq_true, if_false]
    rw [← hzero]
  | true =>
    have hword : p.code.getD ((p.offset k).toNat + 1) 0 = I[k].linkedOperand p.offsets := by
      rw [hp.toNat_offset (by omega), Array.getD_eq_getD_getElem?, hp.operand k hk himm,
        Option.getD_some]
    rw [if_pos rfl, hword]
    cases hb : I[k].op.isBranch with
    | false => simp [Instruction.linkedOperand, hb]
    | true =>
      have hmem := List.getElem_mem hk
      rw [hp.linkedOperand_of_isBranch hmem hb,
        hp.idxOf_offset ((hp.hasTarget _ hmem).operand_le hb), if_pos rfl, UInt32.ofNat_toNat]

/-- The instructions are read back unchanged. -/
theorem listing_eq (hp : p.Linked I) (henc : ∀ i ∈ I, i.Encodable) : p.listing = I := by
  refine List.ext_getElem (by simp [listing, hp.size_offsets]) fun k _ hk => ?_
  simp only [listing, List.getElem_map, List.getElem_range]
  exact hp.instructionAt_eq hk (henc _ (List.getElem_mem hk))

end Linked

end Program

namespace Header

/-- A section has at most the length that the header gives it. -/
theorem size_sectionBytes_lt (image : ByteArray) (offset length : Int32) :
    (sectionBytes image offset length).size < 2 ^ 31 := by
  have := length.toInt_lt
  rw [sectionBytes, ByteArray.size_extract]
  omega

end Header

namespace Program

/-- **Preparation is well formed and loses nothing.** Whenever preparing the code section of an
image succeeds, table and stream fit the instructions that the section holds, and writing the
program's instructions gives back the part of the section that they took. -/
theorem prepare_wellFormed_lossless (h : Header) (image : ByteArray) {p : Program}
    (hp : prepare (h.codeBytes image) h.instructionCount.toInt.toNat = .ok p) :
    ∃ I, Instruction.decodeAll (h.codeBytes image) h.instructionCount.toInt.toNat = .ok I ∧
      I.size = h.instructionCount.toInt.toNat ∧ p.WellFormed I ∧ p.listing = I.toList ∧
      p.bytes = (Bytes.toBytes (h.codeBytes image)).take
        (I.toList.map Instruction.byteWidth).sum := by
  obtain ⟨I, hI, hsize, hlinked⟩ := linked_of_prepare (Header.size_sectionBytes_lt _ _ _) hp
  obtain ⟨-, henc, hfront⟩ := Instruction.decodeAll_eq_ok_iff.mp hI
  have hlisting : p.listing = I.toList := hlinked.listing_eq (by simpa using henc)
  refine ⟨I, hI, hsize, hlinked.wellFormed, hlisting, ?_⟩
  have hlen : (I.toList.flatMap Instruction.bytes).length
      = (I.toList.map Instruction.byteWidth).sum := by
    rw [List.length_flatMap]
    simp only [Instruction.length_bytes]
  rw [bytes, hlisting, ← hlen]
  exact List.prefix_iff_eq_take.mp hfront

end Program

/-! ## A small module

It asks its host, branches on the answer, passes an argument to a function, and returns. -/

/-- A program with immediates of all three widths. -/
def Program.sample : List Instruction :=
  [⟨.enter, 24⟩, ⟨.constant, 0xFFFFFFFF⟩, ⟨.call, 0⟩, ⟨.constant, 3⟩, ⟨.eq, 6⟩, ⟨.breakpoint, 0⟩,
   ⟨.constant, 7⟩, ⟨.arg, 8⟩, ⟨.constant, 11⟩, ⟨.call, 0⟩, ⟨.leave, 24⟩, ⟨.enter, 16⟩,
   ⟨.constant, 42⟩, ⟨.leave, 16⟩]

/-- A header for it; the code section has one byte too many. -/
def Header.sample : Header :=
  ⟨moduleMagic, 14, 32, 56, 88, 0, 0, 128⟩

/-- The image of the two. -/
def Module.sampleImage : ByteArray :=
  Header.sample.encode ++ ⟨(Program.sample.flatMap Instruction.bytes).toArray.push 255⟩

namespace Program

theorem prepare_wellFormed_lossless_sample :
    ∃ p, prepare (Header.sample.codeBytes Module.sampleImage)
        Header.sample.instructionCount.toInt.toNat = .ok p ∧
      ∃ I, Instruction.decodeAll (Header.sample.codeBytes Module.sampleImage)
          Header.sample.instructionCount.toInt.toNat = .ok I ∧
        I.size = Header.sample.instructionCount.toInt.toNat ∧ p.WellFormed I ∧
        p.listing = I.toList ∧
        p.bytes = (Bytes.toBytes (Header.sample.codeBytes Module.sampleImage)).take
          (I.toList.map Instruction.byteWidth).sum := by
  have hok : (prepare (Header.sample.codeBytes Module.sampleImage)
      Header.sample.instructionCount.toInt.toNat).isOk = true := by
    decide +kernel
  cases hp : prepare (Header.sample.codeBytes Module.sampleImage)
      Header.sample.instructionCount.toInt.toNat with
  | error e =>
    rw [hp] at hok
    contradiction
  | ok p => exact ⟨p, rfl, prepare_wellFormed_lossless _ _ hp⟩

end Program

end BytecodeHost
