import BytecodeHost.Program
import BytecodeHost.Proofs.Bytes

/-!
# Decoding code sections

`Instruction.bytes` writes an instruction as it stands in an image, and decoding is its inverse:
a code section decodes to a list of instructions exactly when it starts with their bytes.

Where decoding stops short, `Instruction.Undecodable` says why, in terms of the bytes that are left
and without mentioning the decoder.

## Main definitions

* `Instruction.bytes`, `Instruction.Encodable` — the bytes of an instruction, and when its operand
  fits into them
* `Instruction.Undecodable` — bytes that start with no complete instruction

## Main results

* `Instruction.decodeAll_eq_ok_iff` — what a section decodes to
* `Instruction.exists_decodeAll_error_iff` — when it does not, and with which kind of failure
-/

namespace BytecodeHost

namespace Opcode

theorem immediateWidth_cases (op : Opcode) :
    op.immediateWidth = 0 ∨ op.immediateWidth = 1 ∨ op.immediateWidth = 4 := by
  cases op <;> decide

theorem immediateWidth_of_isBranch {op : Opcode} (h : op.isBranch = true) :
    op.immediateWidth = 4 := by
  cases op <;> first | rfl | exact absurd h (by decide)

theorem hasImmediate_of_isBranch {op : Opcode} (h : op.isBranch = true) :
    op.hasImmediate = true := by
  rw [hasImmediate, immediateWidth_of_isBranch h]
  rfl

theorem size_all : all.size = count := rfl

theorem ofByte?_eq_none_iff {b : UInt8} : ofByte? b = none ↔ count ≤ b.toNat := by
  rw [ofByte?, Array.getElem?_eq_none_iff, size_all]

/-- Every byte below the opcode count is the number of its opcode. -/
theorem toByte_of_ofByte? {b : UInt8} {op : Opcode} (h : ofByte? b = some op) : op.toByte = b := by
  have numbered : ∀ n < count, (all[n]?.map toByte) = some (UInt8.ofNat n) := by decide
  obtain ⟨hlt, -⟩ := Array.getElem?_eq_some_iff.mp h
  have hb := numbered b.toNat hlt
  rw [show all[b.toNat]? = some op from h] at hb
  simpa using hb

end Opcode

namespace Instruction

/-! ## The bytes of an instruction -/

/-- The immediate of an instruction as it stands in an image. -/
def immediate (i : Instruction) : List UInt8 :=
  match i.op.immediateWidth with
  | 0 => []
  | 1 => [i.operand.toUInt8]
  | _ => Bytes.littleEndian i.operand

/-- An instruction as it stands in an image. -/
def bytes (i : Instruction) : List UInt8 :=
  i.op.toByte :: i.immediate

/-- The operand fits into the immediate; without an immediate it is zero. -/
def Encodable (i : Instruction) : Prop :=
  i.operand.toNat < 2 ^ (8 * i.op.immediateWidth)

@[simp] theorem length_immediate (i : Instruction) :
    i.immediate.length = i.op.immediateWidth := by
  obtain h | h | h := i.op.immediateWidth_cases <;> simp [immediate, h]

@[simp] theorem length_bytes (i : Instruction) : i.bytes.length = i.byteWidth := by
  rw [bytes, List.length_cons, length_immediate, byteWidth, Nat.add_comm]

theorem width_pos (i : Instruction) : 0 < i.width := by
  rw [width]
  split <;> omega

/-- A stream is never longer than the code section it comes from. -/
theorem width_le_byteWidth (i : Instruction) : i.width ≤ i.byteWidth := by
  rw [width, byteWidth, Opcode.hasImmediate]
  split
  · rename_i h
    have : i.op.immediateWidth ≠ 0 := by simpa using h
    omega
  · omega

/-- Every instruction takes a byte. -/
theorem length_le_length_flatMap_bytes (I : List Instruction) :
    I.length ≤ (I.flatMap bytes).length := by
  induction I with
  | nil => simp
  | cons i I ih =>
    simp only [List.length_cons, List.flatMap_cons, List.length_append, length_bytes, byteWidth]
    omega

/-! ## One instruction -/

/-- The operand that is read is the one whose immediate stands there. -/
theorem operandAt_of_drop_eq {src : ByteArray} {i : Instruction} {offset : Nat}
    {rest : List UInt8} (hi : i.Encodable)
    (h : (Bytes.toBytes src).drop offset = i.immediate ++ rest) :
    operandAt src i.op offset = i.operand := by
  have hsize : offset + i.op.immediateWidth ≤ src.size ∨ i.op.immediateWidth = 0 := by
    have := congrArg List.length h
    simp only [List.length_drop, Bytes.length_toBytes, List.length_append, length_immediate] at this
    omega
  rw [Encodable] at hi
  obtain hw | hw | hw := i.op.immediateWidth_cases
  · rw [hw] at hi
    rw [operandAt, hw, ← UInt32.toNat_inj]
    exact (Nat.lt_one_iff.mp hi).symm
  · rw [hw] at hi
    rw [immediate, hw, Bytes.drop_eq_cons_of_lt (by omega)] at h
    rw [operandAt, hw, (List.cons.inj h).1, ← UInt32.toNat_inj]
    simpa using hi
  · rw [immediate, hw, Bytes.drop_eq_littleEndian_append (by omega)] at h
    rw [operandAt, hw]
    exact Bytes.littleEndian_inj (List.append_inj h (by simp)).1

/-- An immediate that lies inside the section stands where it is read. -/
theorem drop_eq_of_operandAt {src : ByteArray} {op : Opcode} {offset : Nat}
    (h : offset + op.immediateWidth ≤ src.size) :
    (⟨op, operandAt src op offset⟩ : Instruction).Encodable ∧
      (Bytes.toBytes src).drop offset
        = (⟨op, operandAt src op offset⟩ : Instruction).immediate
          ++ (Bytes.toBytes src).drop (offset + op.immediateWidth) := by
  obtain hw | hw | hw := op.immediateWidth_cases
  · simp [Encodable, immediate, operandAt, hw]
  · have hb := (Bytes.byteAt src offset).toNat_lt
    refine ⟨by simpa [Encodable, operandAt, hw] using hb, ?_⟩
    rw [Bytes.drop_eq_cons_of_lt (by omega)]
    simp [immediate, operandAt, hw]
  · have hword := (Bytes.wordAt src offset).toNat_lt
    refine ⟨by simpa [Encodable, operandAt, hw] using hword, ?_⟩
    rw [Bytes.drop_eq_littleEndian_append (by omega)]
    simp [immediate, operandAt, hw]

/-- Bytes that start with no complete instruction, and the kind of failure that this is. -/
inductive Undecodable : List UInt8 → Kind → Prop where
  /-- Nothing is left. -/
  | past : Undecodable [] .pcOutOfRange
  /-- The first byte is no opcode. -/
  | opcode {b : UInt8} {rest : List UInt8} (h : 60 ≤ b.toNat) :
    Undecodable (b :: rest) .badInstruction
  /-- The immediate is cut off. -/
  | cut {op : Opcode} {rest : List UInt8} (h : rest.length < op.immediateWidth) :
    Undecodable (op.toByte :: rest) .pcOutOfRange

theorem decodeAt_of_drop_eq {src : ByteArray} {i : Instruction} {offset : Nat}
    {rest : List UInt8} (index : Nat) (hi : i.Encodable)
    (h : (Bytes.toBytes src).drop offset = i.bytes ++ rest) :
    decodeAt src index offset = .ok i := by
  have hlen := congrArg List.length h
  simp only [List.length_drop, Bytes.length_toBytes, List.length_append, length_bytes,
    byteWidth] at hlen
  rw [Bytes.drop_eq_cons_of_lt (by omega), bytes, List.cons_append] at h
  obtain ⟨hbyte, himm⟩ := List.cons.inj h
  have hop : Opcode.ofByte? (Bytes.byteAt src offset) = some i.op := by
    rw [hbyte, Opcode.ofByte?_toByte]
  simp only [decodeAt, if_neg (show ¬src.size ≤ offset by omega), hop,
    if_neg (show ¬src.size < offset + 1 + i.op.immediateWidth by omega),
    operandAt_of_drop_eq hi himm]

theorem decodeAt_of_undecodable {src : ByteArray} {offset : Nat} {k : Kind} (index : Nat)
    (h : Undecodable ((Bytes.toBytes src).drop offset) k) :
    ∃ e, decodeAt src index offset = .error e ∧ e.kind = k := by
  by_cases hpast : src.size ≤ offset
  · rw [Bytes.drop_eq_nil_of_le hpast] at h
    cases h with
    | past => exact ⟨_, by rw [decodeAt, if_pos hpast], rfl⟩
  · rw [Bytes.drop_eq_cons_of_lt (by omega)] at h
    generalize hb : Bytes.byteAt src offset = b at h
    cases h with
    | opcode hcount =>
      refine ⟨.badOpcode b offset, ?_, rfl⟩
      simp only [decodeAt, if_neg hpast, hb, Opcode.ofByte?_eq_none_iff.mpr hcount]
    | @cut op _ hcut =>
      simp only [List.length_drop, Bytes.length_toBytes] at hcut
      refine ⟨.cutImmediate op (offset + 1) src.size, ?_, rfl⟩
      simp only [decodeAt, if_neg hpast, hb, Opcode.ofByte?_toByte,
        if_pos (show src.size < offset + 1 + op.immediateWidth by omega)]

/-- What decoding one instruction can come to. -/
theorem decodeAt_cases (src : ByteArray) (index offset : Nat) :
    (∃ i, decodeAt src index offset = .ok i ∧ i.Encodable ∧
        (Bytes.toBytes src).drop offset
          = i.bytes ++ (Bytes.toBytes src).drop (offset + i.byteWidth)) ∨
      ∃ e, decodeAt src index offset = .error e ∧
        Undecodable ((Bytes.toBytes src).drop offset) e.kind := by
  by_cases hpast : src.size ≤ offset
  · refine .inr ⟨_, by rw [decodeAt, if_pos hpast], ?_⟩
    rw [Bytes.drop_eq_nil_of_le hpast]
    exact .past
  · rw [Bytes.drop_eq_cons_of_lt (by omega)]
    cases hop : Opcode.ofByte? (Bytes.byteAt src offset) with
    | none =>
      refine .inr ⟨.badOpcode (Bytes.byteAt src offset) offset, ?_,
        .opcode (Opcode.ofByte?_eq_none_iff.mp hop)⟩
      simp only [decodeAt, if_neg hpast, hop]
    | some op =>
      rw [← Opcode.toByte_of_ofByte? hop]
      by_cases hcut : src.size < offset + 1 + op.immediateWidth
      · refine .inr ⟨.cutImmediate op (offset + 1) src.size, ?_, .cut ?_⟩
        · simp only [decodeAt, if_neg hpast, hop, if_pos hcut]
        · simp only [List.length_drop, Bytes.length_toBytes]
          omega
      · obtain ⟨hi, himm⟩ := drop_eq_of_operandAt (Nat.le_of_not_lt hcut)
        refine .inl ⟨⟨op, operandAt src op (offset + 1)⟩, ?_, hi, ?_⟩
        · simp only [decodeAt, if_neg hpast, hop, if_neg hcut]
        · rw [bytes, byteWidth, List.cons_append, himm, Nat.add_assoc]

/-! ## Code sections -/

theorem decodeFrom_succ {src : ByteArray} {n offset : Nat} {done : Array Instruction}
    {i : Instruction} (h : decodeAt src done.size offset = .ok i) :
    decodeFrom src (n + 1) offset done
      = decodeFrom src n (offset + i.byteWidth) (done.push i) := by
  rw [decodeFrom, h]

/-- Decoding passes over instructions that stand there. -/
theorem decodeFrom_of_drop_eq (src : ByteArray) (I : List Instruction) (n offset : Nat)
    {rest : List UInt8} (done : Array Instruction) (hI : ∀ i ∈ I, i.Encodable)
    (h : (Bytes.toBytes src).drop offset = I.flatMap bytes ++ rest) :
    decodeFrom src (I.length + n) offset done
      = decodeFrom src n (offset + (I.flatMap bytes).length) (done ++ I.toArray) := by
  induction I generalizing offset done with
  | nil => simp
  | cons i I ih =>
    rw [List.flatMap_cons, List.append_assoc] at h
    have hnext : (Bytes.toBytes src).drop (offset + i.byteWidth) = I.flatMap bytes ++ rest := by
      rw [← List.drop_drop, h, ← length_bytes, List.drop_left]
    rw [List.length_cons, show I.length + 1 + n = I.length + n + 1 by omega,
      decodeFrom_succ (decodeAt_of_drop_eq done.size (hI i (by simp)) h),
      ih _ (done.push i) (fun j hj => hI j (by simp [hj])) hnext]
    congr 1
    · simp only [List.flatMap_cons, List.length_append, length_bytes]
      omega
    · simp

theorem decodeFrom_cases (src : ByteArray) (n offset : Nat) (done : Array Instruction) :
    ∃ I : List Instruction, (∀ i ∈ I, i.Encodable) ∧ ∃ rest,
      (Bytes.toBytes src).drop offset = I.flatMap bytes ++ rest ∧
      ((I.length = n ∧ decodeFrom src n offset done = .ok (done ++ I.toArray)) ∨
        (I.length < n ∧ ∃ e, decodeFrom src n offset done = .error e ∧
          Undecodable rest e.kind)) := by
  induction n generalizing offset done with
  | zero => exact ⟨[], by simp, _, rfl, .inl ⟨rfl, by simp [decodeFrom]⟩⟩
  | succ n ih =>
    obtain ⟨i, hi, henc, hdrop⟩ | ⟨e, he, hbad⟩ := decodeAt_cases src done.size offset
    · obtain ⟨I, hI, rest, hrest, hcase⟩ := ih (offset + i.byteWidth) (done.push i)
      refine ⟨i :: I, by simpa using ⟨henc, hI⟩, rest, ?_, ?_⟩
      · rw [hdrop, hrest, List.flatMap_cons, List.append_assoc]
      · rw [decodeFrom_succ hi]
        obtain ⟨hlen, hok⟩ | ⟨hlen, e, herr, hbad⟩ := hcase
        · exact .inl ⟨by simp [hlen], by simp [hok]⟩
        · exact .inr ⟨by simpa using hlen, e, herr, hbad⟩
    · exact ⟨[], by simp, _, rfl, .inr ⟨by simp, e, by rw [decodeFrom, he], hbad⟩⟩

/-- **A section decodes to the instructions that it starts with.** -/
theorem decodeAll_eq_ok_iff {src : ByteArray} {n : Nat} {I : Array Instruction} :
    decodeAll src n = .ok I ↔
      I.size = n ∧ (∀ i ∈ I, i.Encodable) ∧ I.toList.flatMap bytes <+: Bytes.toBytes src := by
  constructor
  · intro h
    obtain ⟨J, hJ, rest, hrest, ⟨hlen, hok⟩ | ⟨-, e, herr, -⟩⟩ := decodeFrom_cases src n 0 #[]
    · rw [decodeAll, hok, Array.empty_append] at h
      obtain rfl := Except.ok.inj h
      exact ⟨by simpa using hlen, by simpa using hJ, rest, hrest.symm⟩
    · rw [decodeAll, herr] at h
      contradiction
  · rintro ⟨rfl, hI, rest, hrest⟩
    have h := decodeFrom_of_drop_eq src I.toList 0 0 #[] (by simpa using hI) hrest.symm
    rw [decodeAll]
    simpa [decodeFrom] using h

/-- **Decoding fails at the first instruction that is not complete**, with the kind of failure that
its bytes call for. -/
theorem exists_decodeAll_error_iff {src : ByteArray} {n : Nat} {k : Kind} :
    (∃ e, decodeAll src n = .error e ∧ e.kind = k) ↔
      ∃ (I : List Instruction) (rest : List UInt8), I.length < n ∧ (∀ i ∈ I, i.Encodable) ∧
        Bytes.toBytes src = I.flatMap bytes ++ rest ∧ Undecodable rest k := by
  constructor
  · rintro ⟨e, he, rfl⟩
    obtain ⟨J, hJ, rest, hrest, ⟨-, hok⟩ | ⟨hlen, e', herr, hbad⟩⟩ := decodeFrom_cases src n 0 #[]
    · rw [decodeAll, hok] at he
      contradiction
    · rw [decodeAll, herr] at he
      obtain rfl := Except.error.inj he
      exact ⟨J, rest, hlen, hJ, hrest, hbad⟩
  · rintro ⟨I, rest, hlen, hI, hsrc, hbad⟩
    have hskip := decodeFrom_of_drop_eq src I (n - I.length) 0 #[] hI hsrc
    rw [show I.length + (n - I.length) = n - I.length - 1 + 1 + I.length by omega] at hskip
    have hdrop : (Bytes.toBytes src).drop (0 + (I.flatMap bytes).length) = rest := by
      rw [Nat.zero_add, hsrc, List.drop_left]
    obtain ⟨e, he, hk⟩ := decodeAt_of_undecodable (#[] ++ I.toArray).size (hdrop ▸ hbad)
    refine ⟨e, ?_, hk⟩
    rw [decodeAll, show n = n - I.length - 1 + 1 + I.length by omega, hskip,
      show n - I.length = n - I.length - 1 + 1 by omega, decodeFrom, he]

end Instruction

end BytecodeHost
