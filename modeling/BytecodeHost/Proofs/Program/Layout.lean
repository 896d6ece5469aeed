import BytecodeHost.Proofs.Program.Decoding

/-!
# The layout of linked programs

An instruction takes one word of the stream, or two if it has an immediate, so the place of an
instruction is the sum of the widths before it. Linking builds that table in one pass and uses it
in another; `Program.Linked` says what both passes together leave behind, and everything that is
proved about running a program is proved from it.

## Main definitions

* `Program.place` — the place of an instruction in the stream
* `Instruction.HasTarget` — the target of a branch is an instruction or the end of the program
* `Program.Linked` — a program is the stream of a list of instructions

## Main results

* `Program.linkFrom_eq_ok`, `Program.exists_linkFrom_error` — linking succeeds exactly when all
  branches have targets
* `Program.prepare_eq_ok_iff`, `Program.exists_prepare_error_iff`, `Program.linked_of_prepare`
* `Program.Linked.offset_inj` — the table is injective, so a place names one instruction
-/

namespace BytecodeHost

namespace Program

/-! ## Places -/

/-- The place of the instruction with a given index: the words that the instructions before it
take. -/
def place (I : List Instruction) (k : Nat) : Nat :=
  ((I.take k).map Instruction.width).sum

@[simp] theorem place_zero (I : List Instruction) : place I 0 = 0 := rfl

@[simp] theorem place_cons_succ (i : Instruction) (I : List Instruction) (k : Nat) :
    place (i :: I) (k + 1) = i.width + place I k := by
  simp [place]

theorem place_succ {I : List Instruction} {k : Nat} (h : k < I.length) :
    place I (k + 1) = place I k + I[k].width := by
  rw [place, place, List.take_add_one, List.getElem?_eq_getElem h, List.map_append, List.sum_append]
  simp

/-- The table is strictly increasing. -/
theorem place_lt_place {I : List Instruction} {j k : Nat} (hjk : j < k) (hk : k ≤ I.length) :
    place I j < place I k := by
  induction k with
  | zero => omega
  | succ k ih =>
    have hw := (I[k]).width_pos
    rw [place_succ (by omega)]
    by_cases h : j = k
    · rw [h]
      omega
    · have := ih (by omega) (by omega)
      omega

theorem place_le_place {I : List Instruction} {j k : Nat} (hjk : j ≤ k) (hk : k ≤ I.length) :
    place I j ≤ place I k := by
  rcases Nat.lt_or_eq_of_le hjk with h | rfl
  · exact Nat.le_of_lt (place_lt_place h hk)
  · exact Nat.le_refl _

theorem place_inj {I : List Instruction} {j k : Nat} (hj : j ≤ I.length) (hk : k ≤ I.length)
    (h : place I j = place I k) : j = k := by
  rcases Nat.lt_trichotomy j k with hlt | heq | hlt
  · have := place_lt_place hlt hk
    omega
  · exact heq
  · have := place_lt_place hlt hj
    omega

/-- The stream is no longer than the bytes it was decoded from. -/
theorem place_length_le (I : List Instruction) :
    place I I.length ≤ (I.flatMap Instruction.bytes).length := by
  induction I with
  | nil => simp
  | cons i I ih =>
    have := i.width_le_byteWidth
    simp only [List.length_cons, place_cons_succ, List.flatMap_cons, List.length_append,
      Instruction.length_bytes]
    omega

/-! ## The table -/

theorem toList_foldl_offsets (I : List Instruction) (table : Array UInt32) (x : UInt32) :
    (I.foldl (fun t i => t.push (t.back?.getD 0 + UInt32.ofNat i.width)) (table.push x)).toList
      = table.toList ++ (List.range (I.length + 1)).map fun k => x + UInt32.ofNat (place I k) := by
  induction I generalizing table x with
  | nil => simp
  | cons i I ih =>
    have hshift : ∀ k, x + UInt32.ofNat i.width + UInt32.ofNat (place I k)
        = x + UInt32.ofNat (place (i :: I) (k + 1)) := by
      intro k
      rw [place_cons_succ, UInt32.ofNat_add, UInt32.add_assoc]
    rw [List.foldl_cons, Array.back?_push, Option.getD_some, ih, Array.toList_push,
      List.append_assoc, List.length_cons, List.range_succ_eq_map (n := I.length + 1)]
    simp [hshift]

theorem toList_offsetsOf (I : Array Instruction) :
    (offsetsOf I).toList
      = (List.range (I.size + 1)).map fun k => UInt32.ofNat (place I.toList k) := by
  have h := toList_foldl_offsets I.toList #[] 0
  rw [offsetsOf, ← Array.foldl_toList]
  simpa using h

@[simp] theorem size_offsetsOf (I : Array Instruction) : (offsetsOf I).size = I.size + 1 := by
  rw [← Array.length_toList, toList_offsetsOf, List.length_map, List.length_range]

theorem getElem?_offsetsOf {I : Array Instruction} {k : Nat} (hk : k ≤ I.size) :
    (offsetsOf I)[k]? = some (UInt32.ofNat (place I.toList k)) := by
  rw [← Array.getElem?_toList, toList_offsetsOf, List.getElem?_map, List.getElem?_range (by omega)]
  rfl

end Program

/-! ## The stream -/

namespace Instruction

/-- A branch names one of `count` instructions or the end of the program. -/
def HasTarget (count : Nat) (i : Instruction) : Prop :=
  i.op.isBranch = true → 0 ≤ i.operand.toInt32.toInt ∧ i.operand.toInt32.toInt ≤ count

instance (count : Nat) (i : Instruction) : Decidable (i.HasTarget count) :=
  inferInstanceAs (Decidable (_ → _))

theorem HasTarget.operand_le {count : Nat} {i : Instruction} (h : i.HasTarget count)
    (hb : i.op.isBranch = true) : i.operand.toNat ≤ count := by
  obtain ⟨h₀, h₁⟩ := h hb
  rw [Bytes.toInt_toInt32] at h₀ h₁
  have := i.operand.toNat_lt
  split at h₀ <;> omega

/-- The operand of an instruction as it stands in the stream. -/
def linkedOperand (offsets : Array UInt32) (i : Instruction) : UInt32 :=
  if i.op.isBranch then offsets.getD i.operand.toNat 0 else i.operand

/-- The words of an instruction in the stream. -/
def words (offsets : Array UInt32) (i : Instruction) : List UInt32 :=
  i.op.toByte.toUInt32 :: if i.op.hasImmediate then [i.linkedOperand offsets] else []

@[simp] theorem length_words (offsets : Array UInt32) (i : Instruction) :
    (i.words offsets).length = i.width := by
  rw [words, width]
  split <;> rfl

end Instruction

namespace Program

theorem linkOperand_eq_ok {offsets : Array UInt32} {count index : Nat} {i : Instruction}
    (h : i.HasTarget count) :
    linkOperand offsets count index i = .ok (i.linkedOperand offsets) := by
  rw [linkOperand, Instruction.linkedOperand]
  split
  · rename_i hb
    obtain ⟨h₀, h₁⟩ := h hb
    rw [if_neg]
    rintro (hneg | hlarge)
    · rw [Int32.lt_iff_toInt_lt] at hneg
      exact absurd hneg (Int.not_lt.mpr h₀)
    · omega
  · rfl

theorem exists_linkOperand_error {offsets : Array UInt32} {count index : Nat} {i : Instruction}
    (h : ¬i.HasTarget count) :
    linkOperand offsets count index i = .error (.badTarget i.op index i.operand.toInt32) := by
  obtain ⟨hb, hbad⟩ := Classical.not_imp.mp h
  rw [linkOperand, if_pos hb]
  refine if_pos ?_
  rw [Int32.lt_iff_toInt_lt, Int32.toInt_zero]
  omega

theorem linkFrom_eq_ok {offsets : Array UInt32} {count : Nat} {I : List Instruction}
    (h : ∀ i ∈ I, i.HasTarget count) (index : Nat) (code : Array UInt32) :
    linkFrom offsets count I index code
      = .ok (code ++ (I.flatMap (Instruction.words offsets)).toArray) := by
  induction I generalizing index code with
  | nil => simp [linkFrom]
  | cons i I ih =>
    rw [linkFrom, linkOperand_eq_ok (h i (by simp))]
    simp only
    rw [ih fun j hj => h j (by simp [hj])]
    rw [List.flatMap_cons, Instruction.words]
    split <;> simp

/-- The first branch without a target is what linking fails with. -/
theorem exists_linkFrom_error (offsets : Array UInt32) {count : Nat} {I : List Instruction}
    (h : ∃ i ∈ I, ¬i.HasTarget count) (index : Nat) (code : Array UInt32) :
    ∃ op k target, linkFrom offsets count I index code = .error (.badTarget op k target) := by
  induction I generalizing index code with
  | nil => simp at h
  | cons i I ih =>
    by_cases hi : i.HasTarget count
    · have hrest : ∃ j ∈ I, ¬j.HasTarget count := by
        obtain ⟨j, hj, hbad⟩ := h
        rcases List.mem_cons.mp hj with rfl | hj
        · exact absurd hi hbad
        · exact ⟨j, hj, hbad⟩
      rw [linkFrom, linkOperand_eq_ok hi]
      exact ih hrest _ _
    · rw [linkFrom, exists_linkOperand_error hi]
      exact ⟨_, _, _, rfl⟩

/-- Preparing succeeds with the stream of what the section decodes to, if its branches have
targets. -/
theorem prepare_eq_ok_iff {src : ByteArray} {n : Nat} {p : Program} :
    prepare src n = .ok p ↔
      ∃ I, Instruction.decodeAll src n = .ok I ∧ (∀ i ∈ I, i.HasTarget n) ∧
        p = ⟨(I.toList.flatMap (Instruction.words (offsetsOf I))).toArray.push 0, offsetsOf I⟩ := by
  rw [prepare]
  cases hI : Instruction.decodeAll src n with
  | error e => simp
  | ok I =>
    obtain ⟨hsize, -⟩ := Instruction.decodeAll_eq_ok_iff.mp hI
    simp only [Except.ok.injEq, exists_eq_left', link?, hsize]
    by_cases h : ∀ i ∈ I, i.HasTarget n
    · rw [linkFrom_eq_ok (by simpa using h), Array.empty_append, Except.ok.injEq]
      exact ⟨fun hp => ⟨h, hp.symm⟩, fun hp => hp.2.symm⟩
    · obtain ⟨op, k, target, herr⟩ := exists_linkFrom_error (offsetsOf I)
        (show ∃ i ∈ I.toList, ¬i.HasTarget n by simpa using h) 0 #[]
      rw [herr]
      simp [h]

/-- A section that decodes and does not link has a branch without a target. -/
theorem exists_prepare_error_iff {src : ByteArray} {n : Nat} {k : Kind} :
    (∃ e, prepare src n = .error e ∧ e.kind = k) ↔
      (∃ e, Instruction.decodeAll src n = .error e ∧ e.kind = k) ∨
        (k = .invalidJump ∧ ∃ I, Instruction.decodeAll src n = .ok I ∧
          ∃ i ∈ I, ¬i.HasTarget n) := by
  rw [prepare]
  cases hI : Instruction.decodeAll src n with
  | error e => simp
  | ok I =>
    obtain ⟨hsize, -⟩ := Instruction.decodeAll_eq_ok_iff.mp hI
    simp only [link?, hsize, Except.ok.injEq, exists_eq_left', reduceCtorEq, false_and,
      exists_false, false_or]
    by_cases h : ∃ i ∈ I, ¬i.HasTarget n
    · obtain ⟨op, j, target, herr⟩ := exists_linkFrom_error (offsetsOf I)
        (show ∃ i ∈ I.toList, ¬i.HasTarget n by simpa using h) 0 #[]
      rw [herr]
      simp only [Except.error.injEq, exists_eq_left', h, and_true]
      exact eq_comm
    · have hok : ∀ i ∈ I.toList, i.HasTarget n := by
        simpa only [not_exists, not_and, Decidable.not_not, Array.mem_toList_iff] using h
      rw [linkFrom_eq_ok hok]
      simp [h]

/-! ## Linked programs -/

/-- A program is the stream of a list of instructions. -/
structure Linked (p : Program) (I : List Instruction) : Prop where
  /-- The table has one place for each instruction and one for the end. -/
  size_offsets : p.offsets.size = I.length + 1
  /-- The table holds the places. -/
  offset : ∀ k ≤ I.length, p.offsets[k]? = some (UInt32.ofNat (place I k))
  /-- After the last instruction there is one more word. -/
  size_code : p.code.size = place I I.length + 1
  /-- At its place an instruction has its opcode. -/
  opcode : ∀ (k : Nat) (h : k < I.length),
    p.code[place I k]? = some I[k].op.toByte.toUInt32
  /-- The word after it is its operand, for a branch the place of its target. -/
  operand : ∀ (k : Nat) (h : k < I.length), I[k].op.hasImmediate = true →
    p.code[place I k + 1]? = some (I[k].linkedOperand p.offsets)
  /-- The last word is zero. -/
  pad : p.code[place I I.length]? = some 0
  /-- Branches have targets. -/
  hasTarget : ∀ i ∈ I, i.HasTarget I.length
  /-- Places fit into words. -/
  place_lt : place I I.length < 2 ^ 31

/-- The words of the first `k` instructions end where instruction `k` starts. -/
theorem length_flatMap_words_take (offsets : Array UInt32) (I : List Instruction) (k : Nat) :
    ((I.take k).flatMap (Instruction.words offsets)).length = place I k := by
  rw [List.length_flatMap, place]
  simp

theorem getElem?_stream {offsets : Array UInt32} {I : List Instruction} {k : Nat}
    (h : k < I.length) (rest : List UInt32) (j : Nat) (hj : j < I[k].width) :
    (I.flatMap (Instruction.words offsets) ++ rest)[place I k + j]?
      = (I[k].words offsets)[j]? := by
  have hsplit : I.flatMap (Instruction.words offsets)
      = (I.take k).flatMap (Instruction.words offsets)
        ++ (I[k].words offsets ++ (I.drop (k + 1)).flatMap (Instruction.words offsets)) := by
    rw [← List.flatMap_cons, ← List.drop_eq_getElem_cons h, ← List.flatMap_append,
      List.take_append_drop]
  have hlen := length_flatMap_words_take offsets I k
  rw [hsplit, List.append_assoc, List.getElem?_append_right (by omega), hlen,
    Nat.add_sub_cancel_left, List.append_assoc, List.getElem?_append_left (by simpa using hj)]

/-- **What preparing leaves behind.** -/
theorem linked_of_prepare {src : ByteArray} {n : Nat} {p : Program} (hsrc : src.size < 2 ^ 31)
    (h : prepare src n = .ok p) :
    ∃ I, Instruction.decodeAll src n = .ok I ∧ I.size = n ∧ p.Linked I.toList := by
  obtain ⟨I, hI, htarget, rfl⟩ := prepare_eq_ok_iff.mp h
  obtain ⟨rfl, -, hfront⟩ := Instruction.decodeAll_eq_ok_iff.mp hI
  have hlen := length_flatMap_words_take (offsetsOf I) I.toList I.toList.length
  rw [List.take_length] at hlen
  have hle : place I.toList I.toList.length ≤ src.size :=
    Nat.le_trans (place_length_le I.toList) hfront.length_le
  have stream : ∀ k : Nat,
      (((I.toList.flatMap (Instruction.words (offsetsOf I))).toArray.push 0)[k]?)
      = (I.toList.flatMap (Instruction.words (offsetsOf I)) ++ [0])[k]? := by
    intro k
    rw [← Array.getElem?_toList, Array.toList_push]
  refine ⟨I, hI, rfl, ?_, ?_, ?_, ?_, ?_, ?_, ?_, ?_⟩
  · simp
  · intro k hk
    exact getElem?_offsetsOf (by simpa using hk)
  · simp [hlen]
  · intro k hk
    rw [stream]
    exact getElem?_stream hk [0] 0 (Instruction.width_pos _)
  · intro k hk himm
    have hw : 1 < I.toList[k].width := by
      rw [Instruction.width, if_pos himm]
      omega
    rw [stream, getElem?_stream hk [0] 1 hw, Instruction.words, if_pos himm]
    rfl
  · rw [stream, List.getElem?_append_right (by omega), hlen, Nat.sub_self]
    rfl
  · intro i hi
    simpa using htarget i (by simpa using hi)
  · omega

namespace Linked

variable {p : Program} {I : List Instruction}

theorem toNat_ofNat_place (hp : p.Linked I) {k : Nat} (hk : k ≤ I.length) :
    (UInt32.ofNat (place I k)).toNat = place I k := by
  have := place_le_place hk (Nat.le_refl _)
  have := hp.place_lt
  rw [UInt32.toNat_ofNat']
  exact Nat.mod_eq_of_lt (by omega)

/-- The table is injective. -/
theorem offset_inj (hp : p.Linked I) {j k : Nat} (hj : j ≤ I.length) (hk : k ≤ I.length)
    (h : UInt32.ofNat (place I j) = UInt32.ofNat (place I k)) : j = k := by
  refine place_inj hj hk ?_
  rw [← hp.toNat_ofNat_place hj, ← hp.toNat_ofNat_place hk, h]

theorem getD_offsets (hp : p.Linked I) {k : Nat} (hk : k ≤ I.length) :
    p.offsets.getD k 0 = UInt32.ofNat (place I k) := by
  rw [Array.getD_eq_getD_getElem?, hp.offset k hk]
  rfl

/-- A branch operand in the stream is the place of the branch's target. -/
theorem linkedOperand_of_isBranch (hp : p.Linked I) {i : Instruction} (hi : i ∈ I)
    (hb : i.op.isBranch = true) :
    i.linkedOperand p.offsets = UInt32.ofNat (place I i.operand.toNat) := by
  rw [Instruction.linkedOperand, if_pos hb, hp.getD_offsets ((hp.hasTarget i hi).operand_le hb)]

end Linked

end Program

end BytecodeHost
