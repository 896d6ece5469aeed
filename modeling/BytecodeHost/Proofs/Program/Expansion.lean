import BytecodeHost.Proofs.Checked
import BytecodeHost.Proofs.Program.Layout

/-!
# Preparation in place

Preparing a program needs no lists: the sizes of stream and table are known beforehand, one pass
copies opcodes and immediates to where they belong, and a second pass replaces the branch operands
where they stand. Here both passes are written that way, with every access checked, and the result
is what `Program.prepare` gives.

Two cursors run through the first pass. The word cursor never overtakes the byte cursor, since an
instruction takes no more words than bytes, and that keeps all writes inside the stream.

## Main definitions

* `Checked.Expansion`, `Checked.expand` — the first pass
* `Checked.relink` — the second pass
* `Checked.prepare`

## Main results

* `Checked.Expansion.step_after`, `Checked.expand_after` — the first pass is decoding
* `Checked.relink_eq_ok` — the second pass is linking
* `Checked.prepare_eq_ok` — preparation stays in range
-/

namespace BytecodeHost

namespace Instruction

/-- The words of an instruction before it is linked. -/
def rawWords (i : Instruction) : List UInt32 :=
  i.op.toByte.toUInt32 :: if i.op.hasImmediate then [i.operand] else []

@[simp] theorem length_rawWords (i : Instruction) : i.rawWords.length = i.width := by
  rw [rawWords, width]
  split <;> rfl

end Instruction

namespace Program

theorem length_flatMap_rawWords (I : List Instruction) :
    (I.flatMap Instruction.rawWords).length = place I I.length := by
  rw [List.length_flatMap, place, List.take_length]
  simp

theorem place_append {I : List Instruction} {k : Nat} (h : k ≤ I.length) (J : List Instruction) :
    place (I ++ J) k = place I k := by
  rw [place, place, List.take_append_of_le_length h]

theorem place_concat (I : List Instruction) (i : Instruction) :
    place (I ++ [i]) (I ++ [i]).length = place I I.length + i.width := by
  rw [List.length_append, List.length_singleton, place_succ (by simp),
    place_append (Nat.le_refl _), List.getElem_concat_length rfl]

end Program

namespace Checked

open Program

/-! ## Arrays that are filled from the front -/

/-- An array of `n` words, the first of them written and the others still zero. -/
def filled (n : Nat) (xs : List UInt32) : Array UInt32 :=
  (xs ++ List.replicate (n - xs.length) 0).toArray

theorem filled_nil (n : Nat) : filled n [] = Array.replicate n 0 := by
  simp [filled]

theorem filled_of_length {n : Nat} {xs : List UInt32} (h : xs.length = n) :
    filled n xs = xs.toArray := by
  simp [filled, h]

/-- Writing just behind the front moves the front. -/
theorem set_filled (n : Nat) {k : Nat} (xs : List UInt32) (hk : k = xs.length) (h : xs.length < n)
    (x : UInt32) : set (filled n xs) k x = .ok (filled n (xs ++ [x])) := by
  obtain ⟨m, hm⟩ : ∃ m, n - xs.length = m + 1 := ⟨n - xs.length - 1, by omega⟩
  have hnext : n - (xs.length + 1) = m := by omega
  rw [set_eq_ok x (by simp [filled]; omega)]
  simp [filled, hm, hnext, hk, List.replicate_succ]

/-- The written words and one zero. -/
theorem take_filled (n : Nat) {k : Nat} (xs : List UInt32) (hk : k = xs.length)
    (h : xs.length < n) :
    take (filled n xs) (k + 1) = .ok (xs ++ [0]).toArray := by
  obtain ⟨m, hm⟩ : ∃ m, n - xs.length = m + 1 := ⟨n - xs.length - 1, by omega⟩
  rw [take_eq_ok (by simp [filled]; omega)]
  simp [filled, hm, hk, List.replicate_succ, List.take_append, List.take_of_length_le]

/-! ## The first pass -/

/-- The state of the first pass. -/
structure Expansion where
  /-- How many instructions were copied. -/
  index : Nat
  /-- The byte cursor. -/
  bytePc : Nat
  /-- The word cursor. -/
  wordPc : Nat
  /-- The stream. -/
  code : Array UInt32
  /-- The table. -/
  table : Array UInt32

/-- The immediate of an opcode that has one. -/
def operandAt (src : ByteArray) (op : Opcode) (offset : Nat) : Except Violation UInt32 :=
  if op.immediateWidth = 4 then wordAt src offset else UInt8.toUInt32 <$> byteAt src offset

/-- Copies the instruction at the cursors. -/
def Expansion.step (src : ByteArray) (s : Expansion) :
    Except Violation (Except CodeError Expansion) := do
  if src.size ≤ s.bytePc then
    return .error (.startsPast s.index src.size)
  else
    let table ← set s.table s.index (UInt32.ofNat s.wordPc)
    let byte ← byteAt src s.bytePc
    match Opcode.ofByte? byte with
    | none => return .error (.badOpcode byte s.bytePc)
    | some op =>
      let code ← set s.code s.wordPc op.toByte.toUInt32
      signed (s.wordPc + 1)
      signed (s.index + 1)
      if op.immediateWidth = 0 then
        return .ok ⟨s.index + 1, s.bytePc + 1, s.wordPc + 1, code, table⟩
      else if src.size < s.bytePc + 1 + op.immediateWidth then
        return .error (.cutImmediate op (s.bytePc + 1) src.size)
      else
        let operand ← operandAt src op (s.bytePc + 1)
        let code ← set code (s.wordPc + 1) operand
        signed (s.wordPc + 1 + 1)
        return .ok ⟨s.index + 1, s.bytePc + 1 + op.immediateWidth, s.wordPc + 2, code, table⟩

/-- Copies a number of instructions. The result is the length of the stream, the stream and the
table. -/
def expand (src : ByteArray) :
    Nat → Expansion → Except Violation (Except CodeError (Nat × Array UInt32 × Array UInt32))
  | 0, s => do
    let table ← set s.table s.index (UInt32.ofNat s.wordPc)
    return .ok (s.wordPc, s.code, table)
  | n + 1, s => do
    match ← s.step src with
    | .error e => return .error e
    | .ok s => expand src n s

/-- The state after some instructions, for a section of `size` bytes and `count` instructions. -/
def Expansion.after (size count : Nat) (done : List Instruction) (offset : Nat) : Expansion where
  index := done.length
  bytePc := offset
  wordPc := place done done.length
  code := filled (size + 1) (done.flatMap Instruction.rawWords)
  table := filled (count + 1) ((List.range done.length).map fun k => UInt32.ofNat (place done k))

/-- What copying one more instruction does to the state. -/
theorem Expansion.after_concat (size count : Nat) (done : List Instruction) (i : Instruction)
    (offset : Nat) :
    after size count (done ++ [i]) offset
      = { index := done.length + 1
          bytePc := offset
          wordPc := place done done.length + i.width
          code := filled (size + 1) (done.flatMap Instruction.rawWords ++ i.rawWords)
          table := filled (count + 1)
            (((List.range done.length).map fun k => UInt32.ofNat (place done k))
              ++ [UInt32.ofNat (place done done.length)]) } := by
  have hmap : ((List.range done.length).map fun k => UInt32.ofNat (place (done ++ [i]) k))
      = (List.range done.length).map fun k => UInt32.ofNat (place done k) := by
    refine List.map_congr_left fun k hk => ?_
    rw [place_append (Nat.le_of_lt (List.mem_range.mp hk))]
  rw [after, place_concat, List.length_append, List.length_singleton, List.range_succ,
    List.map_append, List.map_singleton, place_append (Nat.le_refl _), hmap, List.flatMap_append,
    List.flatMap_singleton]

theorem operandAt_eq_ok {src : ByteArray} {op : Opcode} {offset : Nat}
    (hw : op.immediateWidth ≠ 0) (h : offset + op.immediateWidth ≤ src.size) :
    operandAt src op offset = .ok (Instruction.operandAt src op offset) := by
  obtain hw' | hw' | hw' := op.immediateWidth_cases
  · contradiction
  · rw [operandAt, if_neg (by omega), byteAt_eq_ok (by omega), Instruction.operandAt, hw']
    rfl
  · rw [operandAt, if_pos hw', wordAt_eq_ok (by omega), Instruction.operandAt, hw']
    rfl

/-- One step copies the instruction that decoding gives, and fails as decoding does. -/
theorem Expansion.step_after {src : ByteArray} {count offset : Nat} {done : List Instruction}
    (hsrc : src.size + 1 < 2 ^ 31) (hcount : count < 2 ^ 31) (hdone : done.length < count)
    (hcursor : place done done.length ≤ offset) :
    (after src.size count done offset).step src
      = .ok ((Instruction.decodeAt src done.length offset).map fun i =>
          after src.size count (done ++ [i]) (offset + i.byteWidth)) := by
  have hlen := length_flatMap_rawWords done
  have htable := set_filled (count + 1) (k := done.length)
    ((List.range done.length).map fun k => UInt32.ofNat (place done k)) (by simp) (by simp; omega)
    (UInt32.ofNat (place done done.length))
  rw [after, step]
  by_cases hpast : src.size ≤ offset
  · rw [if_pos hpast, Instruction.decodeAt, if_pos hpast]
    rfl
  rw [if_neg hpast, Instruction.decodeAt, if_neg hpast]
  simp only [htable, ok_bind, byteAt_eq_ok (Nat.lt_of_not_le hpast)]
  cases hop : Opcode.ofByte? (Bytes.byteAt src offset) with
  | none => rfl
  | some op =>
    have hcode := set_filled (src.size + 1) (k := place done done.length)
      (done.flatMap Instruction.rawWords) hlen.symm (by omega) op.toByte.toUInt32
    simp only [hcode, ok_bind,
      signed_eq_ok (n := (place done done.length : Int) + 1) (by omega) (by omega),
      signed_eq_ok (n := (done.length : Int) + 1) (by omega) (by omega)]
    by_cases hw : op.immediateWidth = 0
    · have himm : op.hasImmediate = false := by simp [Opcode.hasImmediate, hw]
      rw [if_pos hw, if_neg (by omega)]
      simp [Except.map, after_concat, Instruction.rawWords, Instruction.width,
        Instruction.byteWidth, himm, hw, pure, Except.pure]
    · rw [if_neg hw]
      by_cases hcut : src.size < offset + 1 + op.immediateWidth
      · rw [if_pos hcut, if_pos hcut]
        rfl
      · have himm : op.hasImmediate = true := by simpa [Opcode.hasImmediate] using hw
        have hoperand := set_filled (src.size + 1) (k := place done done.length + 1)
          (done.flatMap Instruction.rawWords ++ [op.toByte.toUInt32]) (by simp [hlen])
          (by simp [hlen]; omega) (Instruction.operandAt src op (offset + 1))
        rw [if_neg hcut, if_neg hcut, operandAt_eq_ok hw (Nat.le_of_not_lt hcut)]
        simp [hoperand, signed_eq_ok (n := (place done done.length : Int) + 1 + 1) (by omega)
          (by omega), Except.map, after_concat, Instruction.rawWords, Instruction.width,
          Instruction.byteWidth, himm, pure, Except.pure, Nat.add_assoc]

/-- **The first pass is decoding.** It leaves the unlinked words in the stream and the places in
the table. -/
theorem expand_after {src : ByteArray} {count : Nat} (hsrc : src.size + 1 < 2 ^ 31)
    (hcount : count < 2 ^ 31) {n offset : Nat} {done : List Instruction}
    (hn : done.length + n = count) (hcursor : place done done.length ≤ offset) :
    expand src n (.after src.size count done offset)
      = .ok ((Instruction.decodeFrom src n offset done.toArray).map fun I =>
          (place I.toList I.size, filled (src.size + 1) (I.toList.flatMap Instruction.rawWords),
            offsetsOf I)) := by
  induction n generalizing offset done with
  | zero =>
    have htable := set_filled (count + 1) (k := done.length)
      ((List.range done.length).map fun k => UInt32.ofNat (place done k)) (by simp) (by simp; omega)
      (UInt32.ofNat (place done done.length))
    have hoffsets : offsetsOf done.toArray
        = filled (count + 1) (((List.range done.length).map fun k => UInt32.ofNat (place done k))
            ++ [UInt32.ofNat (place done done.length)]) := by
      rw [filled_of_length (by simp; omega), ← Array.toList_inj, toList_offsetsOf,
        List.size_toArray, List.range_succ, List.map_append]
      rfl
    simp only [expand, Expansion.after, htable, ok_bind, Instruction.decodeFrom, Except.map,
      hoffsets]
    rfl
  | succ n ih =>
    rw [expand, Expansion.step_after hsrc hcount (by omega) hcursor, ok_bind,
      Instruction.decodeFrom, List.size_toArray]
    cases Instruction.decodeAt src done.length offset with
    | error e => rfl
    | ok i =>
      have hw := i.width_le_byteWidth
      simp only [Except.map]
      rw [ih (by simp; omega) (by rw [place_concat]; omega), List.push_toArray]
      rfl

/-! ## The second pass -/

/-- Replaces the branch operands of the instructions from a place on. -/
def relink (table : Array UInt32) (count : Nat) :
    (remaining pc index : Nat) → Array UInt32 →
      Except Violation (Except CodeError (Array UInt32))
  | 0, _, _, code => return .ok code
  | n + 1, pc, index, code => do
    let word ← get code pc
    let op := (Opcode.ofByte? word.toUInt8).getD .undef
    if op.isBranch then
      let operand ← get code (pc + 1)
      let target := operand.toInt32
      if target < 0 ∨ (count : Int) < target.toInt then
        return .error (.badTarget op index target)
      else
        let place ← get table operand.toNat
        let code ← set code (pc + 1) place
        relink table count n (pc + 2) (index + 1) code
    else if op.hasImmediate then relink table count n (pc + 2) (index + 1) code
    else relink table count n (pc + 1) (index + 1) code

theorem get_append {pre post : List UInt32} {x : UInt32} {k : Nat} (hk : k = pre.length) :
    get (pre ++ x :: post).toArray k = .ok x := by
  refine get_eq_ok ?_
  simp [hk]

theorem set_append {pre post : List UInt32} {x : UInt32} {k : Nat} (hk : k = pre.length)
    (y : UInt32) :
    set (pre ++ x :: post).toArray k y = .ok (pre ++ y :: post).toArray := by
  rw [set_eq_ok y (by simp [hk])]
  simp [hk]

/-- **The second pass is linking.** What is linked stands before the cursor, and what is not yet
linked behind it. -/
theorem relink_eq_ok {table : Array UInt32} {count : Nat} (htable : count < table.size)
    (I : List Instruction) (pre : List UInt32) (index : Nat) :
    relink table count I.length pre.length index
        (pre ++ (I.flatMap Instruction.rawWords ++ [0])).toArray
      = .ok ((linkFrom table count I index pre.toArray).map fun code => code.push 0) := by
  induction I generalizing pre index with
  | nil => simp [relink, linkFrom, Except.map, pure, Except.pure]
  | cons i I ih =>
    have hop : Opcode.ofByte? i.op.toByte.toUInt32.toUInt8 = some i.op := by
      rw [UInt8.toUInt8_toUInt32, Opcode.ofByte?_toByte]
    rw [List.flatMap_cons, Instruction.rawWords, List.cons_append, List.cons_append, linkFrom,
      linkOperand, List.length_cons, relink, get_append rfl]
    simp only [ok_bind, hop, Option.getD_some]
    cases hb : i.op.isBranch with
    | true =>
      have himm := Opcode.hasImmediate_of_isBranch hb
      have hsplit : ∀ x,
          pre ++ i.op.toByte.toUInt32 :: ([x] ++ I.flatMap Instruction.rawWords ++ [0])
          = (pre ++ [i.op.toByte.toUInt32]) ++ x :: (I.flatMap Instruction.rawWords ++ [0]) := by
        simp
      simp only [himm, if_true, hsplit]
      rw [get_append (by simp), ok_bind]
      by_cases hbad : i.operand.toInt32 < 0 ∨ (count : Int) < i.operand.toInt32.toInt
      · rw [if_pos hbad, if_pos hbad]
        rfl
      · have htarget : i.operand.toNat ≤ count := by
          refine Instruction.HasTarget.operand_le (fun _ => ?_) hb
          rw [Int32.lt_iff_toInt_lt, Int32.toInt_zero] at hbad
          omega
        have hplace : get table i.operand.toNat = .ok (table.getD i.operand.toNat 0) := by
          refine get_eq_ok ?_
          rw [Array.getD_eq_getD_getElem?, Array.getElem?_eq_getElem (by omega), Option.getD_some]
        rw [if_neg hbad, if_neg hbad, hplace, ok_bind, set_append (by simp), ok_bind]
        have := ih (pre ++ [i.op.toByte.toUInt32, table.getD i.operand.toNat 0]) (index + 1)
        simpa using this
    | false =>
      simp only [Bool.false_eq_true, if_false]
      cases himm : i.op.hasImmediate with
      | true =>
        have := ih (pre ++ [i.op.toByte.toUInt32, i.operand]) (index + 1)
        simpa using this
      | false =>
        have := ih (pre ++ [i.op.toByte.toUInt32]) (index + 1)
        simpa using this

/-! ## Both passes -/

/-- Prepares a program in place. -/
def prepare (src : ByteArray) (count : Nat) : Except Violation (Except CodeError Program) := do
  let start : Expansion :=
    ⟨0, 0, 0, Array.replicate (src.size + 1) 0, Array.replicate (count + 1) 0⟩
  match ← expand src count start with
  | .error e => return .error e
  | .ok (length, code, table) =>
    signed (length + 1)
    let code ← take code (length + 1)
    match ← relink table count count 0 0 code with
    | .error e => return .error e
    | .ok code => return .ok ⟨code, table⟩

/-- **Preparation stays in range.** -/
theorem prepare_eq_ok {src : ByteArray} {count : Nat} (hsrc : src.size + 1 < 2 ^ 31)
    (hcount : count < 2 ^ 31) : prepare src count = .ok (Program.prepare src count) := by
  have hexpand := expand_after hsrc hcount (show [].length + count = count by simp) (Nat.le_refl 0)
  rw [show Expansion.after src.size count [] 0
      = ⟨0, 0, 0, Array.replicate (src.size + 1) 0, Array.replicate (count + 1) 0⟩ by
    simp [Expansion.after, filled_nil]] at hexpand
  rw [prepare, hexpand, ok_bind, Program.prepare, Instruction.decodeAll]
  cases hI : Instruction.decodeFrom src count 0 #[] with
  | error e => rfl
  | ok I =>
    obtain ⟨hsize, -, hfront⟩ := Instruction.decodeAll_eq_ok_iff.mp hI
    have hlen : (I.toList.flatMap Instruction.rawWords).length = place I.toList I.size :=
      length_flatMap_rawWords I.toList
    have hle : place I.toList I.size ≤ src.size :=
      Nat.le_trans (place_length_le I.toList) hfront.length_le
    have htake := take_filled (src.size + 1) (k := place I.toList I.size)
      (I.toList.flatMap Instruction.rawWords) hlen.symm (by omega)
    have hrelink : relink (offsetsOf I) count count 0 0
        (I.toList.flatMap Instruction.rawWords ++ [0]).toArray
          = .ok ((linkFrom (offsetsOf I) count I.toList 0 #[]).map fun code => code.push 0) := by
      have := relink_eq_ok (show count < (offsetsOf I).size by simp [hsize]) I.toList [] 0
      rwa [Array.length_toList, hsize] at this
    simp only [Except.map]
    rw [signed_eq_ok (by omega) (by omega), ok_bind, htake, ok_bind, hrelink, ok_bind, link?, hsize]
    cases linkFrom (offsetsOf I) count I.toList 0 #[] <;> rfl

end Checked

end BytecodeHost
