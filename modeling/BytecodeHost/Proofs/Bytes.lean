import Mathlib.Algebra.Ring.Int.Defs
import Mathlib.Algebra.Ring.Nat
import BytecodeHost.Bytes

/-!
# Byte strings as lists

Proofs about images read a byte string as the list of its bytes. `Bytes.littleEndian` is the
encoder that goes with `Bytes.wordAt`: four bytes hold exactly one word, in both directions.

## Main results

* `Bytes.word_wordByte`, `Bytes.littleEndian_word` — a word and its four bytes determine each other
* `Bytes.drop_eq_cons_of_lt`, `Bytes.drop_eq_littleEndian_append` — reading at an offset is taking
  the front of what is left
* `Bytes.drop_add_of_drop_eq`, `Bytes.extract_of_drop_eq` — the bytes behind what was read, and what
  was read as a byte string
* `Bytes.byteAt_set`, `Bytes.byteAt_overwrite` — what is read after a write
-/

namespace BytecodeHost

namespace Bytes

/-! ### Words and their bytes

Both directions go through the number that a word stands for, where the bytes are digits in base
`2 ^ 8`. -/

theorem toNat_word (b₀ b₁ b₂ b₃ : UInt8) :
    (word b₀ b₁ b₂ b₃).toNat
      = b₀.toNat + 2 ^ 8 * b₁.toNat + 2 ^ 16 * b₂.toNat + 2 ^ 24 * b₃.toNat := by
  have h₀ := b₀.toNat_lt
  have h₁ := b₁.toNat_lt
  have h₂ := b₂.toNat_lt
  have h₃ := b₃.toNat_lt
  have shifted : ∀ (b : UInt8) (k : Nat), k ≤ 24 → b.toNat <<< k % 2 ^ 32 = b.toNat * 2 ^ k := by
    intro b k hk
    rw [Nat.shiftLeft_eq]
    refine Nat.mod_eq_of_lt ?_
    have hpow : 2 ^ k ≤ 2 ^ 24 := Nat.pow_le_pow_right (by omega) hk
    have := Nat.mul_lt_mul_of_lt_of_le b.toNat_lt hpow (by omega)
    omega
  have joined : ∀ {low : Nat} (high : Nat) {k : Nat}, low < 2 ^ k →
      low ||| high * 2 ^ k = low + high * 2 ^ k := by
    intro low high k h
    rw [Nat.or_comm, ← Nat.shiftLeft_eq, ← Nat.shiftLeft_add_eq_or_of_lt h, Nat.add_comm]
  simp only [word, UInt32.toNat_or, UInt32.toNat_shiftLeft, UInt8.toNat_toUInt32,
    UInt32.reduceToNat, Nat.reduceMod, shifted _ 8 (by omega), shifted _ 16 (by omega),
    shifted _ 24 (by omega)]
  rw [joined b₁.toNat (by omega), joined b₂.toNat (by omega), joined b₃.toNat (by omega)]
  omega

theorem toNat_wordByte (w : UInt32) {k : Nat} (hk : k < 4) :
    (wordByte w (UInt32.ofNat k)).toNat = w.toNat / 2 ^ (8 * k) % 2 ^ 8 := by
  match k, hk with
  | 0, _ | 1, _ | 2, _ | 3, _ => simp [wordByte, Nat.shiftRight_eq_div_pow]

/-- A word is put together again from its four bytes. -/
@[simp] theorem word_wordByte (w : UInt32) :
    word (wordByte w 0) (wordByte w 1) (wordByte w 2) (wordByte w 3) = w := by
  have h₀ : (wordByte w 0).toNat = _ := toNat_wordByte w (k := 0) (by omega)
  have h₁ : (wordByte w 1).toNat = _ := toNat_wordByte w (k := 1) (by omega)
  have h₂ : (wordByte w 2).toNat = _ := toNat_wordByte w (k := 2) (by omega)
  have h₃ : (wordByte w 3).toNat = _ := toNat_wordByte w (k := 3) (by omega)
  have := w.toNat_lt
  rw [← UInt32.toNat_inj, toNat_word, h₀, h₁, h₂, h₃]
  omega

/-- The bytes of a word, least significant first. -/
def littleEndian (w : UInt32) : List UInt8 :=
  [wordByte w 0, wordByte w 1, wordByte w 2, wordByte w 3]

@[simp] theorem length_littleEndian (w : UInt32) : (littleEndian w).length = 4 := rfl

/-- Four bytes are the bytes of the word that they make. -/
@[simp] theorem littleEndian_word (b₀ b₁ b₂ b₃ : UInt8) :
    littleEndian (word b₀ b₁ b₂ b₃) = [b₀, b₁, b₂, b₃] := by
  have hw := toNat_word b₀ b₁ b₂ b₃
  have h₀ : (wordByte (word b₀ b₁ b₂ b₃) 0).toNat = _ := toNat_wordByte _ (k := 0) (by omega)
  have h₁ : (wordByte (word b₀ b₁ b₂ b₃) 1).toNat = _ := toNat_wordByte _ (k := 1) (by omega)
  have h₂ : (wordByte (word b₀ b₁ b₂ b₃) 2).toNat = _ := toNat_wordByte _ (k := 2) (by omega)
  have h₃ : (wordByte (word b₀ b₁ b₂ b₃) 3).toNat = _ := toNat_wordByte _ (k := 3) (by omega)
  have := b₀.toNat_lt
  have := b₁.toNat_lt
  have := b₂.toNat_lt
  have := b₃.toNat_lt
  simp only [littleEndian, List.cons.injEq, and_true, ← UInt8.toNat_inj]
  omega

theorem littleEndian_inj {v w : UInt32} (h : littleEndian v = littleEndian w) : v = w := by
  simp only [littleEndian, List.cons.injEq, and_true] at h
  obtain ⟨h₀, h₁, h₂, h₃⟩ := h
  rw [← word_wordByte v, h₀, h₁, h₂, h₃, word_wordByte]

/-- A sum that does not overflow. -/
theorem toInt_add_of_lt {a b : Int32} (h : 0 ≤ a.toInt + b.toInt)
    (hlt : a.toInt + b.toInt < 2 ^ 31) : (a + b).toInt = a.toInt + b.toInt := by
  rw [Int32.toInt_add]
  exact Int.bmod_eq_of_le (by omega) (by omega)

/-- A word read as a signed number. -/
theorem toInt_toInt32 (w : UInt32) :
    w.toInt32.toInt = if w.toNat < 2 ^ 31 then (w.toNat : Int) else (w.toNat : Int) - 2 ^ 32 := by
  rw [← Int32.toInt_toBitVec, UInt32.toBitVec_toInt32, BitVec.toInt_eq_toNat_cond]
  simp only [UInt32.toNat_toBitVec]
  split <;> split <;> omega

/-- A signed number that is not negative is read as it is. -/
theorem toNat_toUInt32 {x : Int32} (h : 0 ≤ x.toInt) : (x.toUInt32.toNat : Int) = x.toInt := by
  have hx := toInt_toInt32 x.toUInt32
  have := x.toUInt32.toNat_lt
  rw [Int32.toInt32_toUInt32] at hx
  split at hx <;> omega

/-! ### Reading at an offset -/

/-- The bytes of a byte string. -/
def toBytes (b : ByteArray) : List UInt8 :=
  b.data.toList

@[simp] theorem length_toBytes (b : ByteArray) : (toBytes b).length = b.size := rfl

theorem toBytes_inj {a b : ByteArray} : toBytes a = toBytes b ↔ a = b := by
  rw [toBytes, toBytes, Array.toList_inj, ByteArray.ext_iff]

theorem toBytes_append (a b : ByteArray) : toBytes (a ++ b) = toBytes a ++ toBytes b := by
  rw [toBytes, ByteArray.data_append, Array.toList_append]
  rfl

@[simp] theorem toBytes_push (b : ByteArray) (x : UInt8) :
    toBytes (b.push x) = toBytes b ++ [x] := by
  rw [toBytes, ByteArray.data_push, Array.toList_push]
  rfl

theorem toBytes_pushMany (b : ByteArray) (x : UInt8) (n : Nat) :
    toBytes (pushMany b x n) = toBytes b ++ List.replicate n x := by
  induction n generalizing b with
  | zero => exact (List.append_nil _).symm
  | succ n ih =>
    rw [pushMany, ih, toBytes_push, List.append_assoc, List.replicate_succ]
    rfl

theorem toBytes_fill (x : UInt8) (n : Nat) : toBytes (fill x n) = List.replicate n x := by
  rw [fill, toBytes_pushMany]
  rfl

theorem toBytes_zeros (n : Nat) : toBytes (zeros n) = List.replicate n 0 :=
  toBytes_fill 0 n

@[simp] theorem toBytes_pushWord (b : ByteArray) (w : UInt32) :
    toBytes (pushWord b w) = toBytes b ++ littleEndian w := by
  simp [pushWord, littleEndian]

theorem toBytes_extract (b : ByteArray) (start stop : Nat) :
    toBytes (b.extract start stop) = ((toBytes b).take stop).drop start := by
  rw [toBytes, toBytes, ByteArray.data_extract, Array.toList_extract, List.extract_eq_take_drop,
    List.drop_take]

theorem toBytes_extract_size (b : ByteArray) (i : Nat) :
    toBytes (b.extract i b.size) = (toBytes b).drop i := by
  rw [toBytes_extract, List.take_of_length_le (by simp)]

theorem extract_of_size_le {b : ByteArray} {stop : Nat} (h : b.size ≤ stop) :
    b.extract 0 stop = b := by
  rw [← toBytes_inj, toBytes_extract, List.drop_zero, List.take_of_length_le]
  rwa [length_toBytes]

theorem byteAt_of_lt {b : ByteArray} {i : Nat} (h : i < b.size) : byteAt b i = b.get i h :=
  dif_pos h

theorem byteAt_of_le {b : ByteArray} {i : Nat} (h : b.size ≤ i) : byteAt b i = 0 :=
  dif_neg (Nat.not_lt.mpr h)

theorem byteAt_eq (b : ByteArray) (i : Nat) : byteAt b i = (toBytes b)[i]?.getD 0 := by
  by_cases h : i < b.size
  · rw [byteAt_of_lt h, toBytes, Array.getElem?_toList, Array.getElem?_eq_getElem h]
    rfl
  · rw [byteAt, dif_neg h, List.getElem?_eq_none (by simpa using h)]
    rfl

theorem byteAt_zeros (n i : Nat) : byteAt (zeros n) i = 0 := by
  rw [byteAt_eq, toBytes_zeros, List.getElem?_replicate]
  split <;> rfl

/-- A byte of a stretch of bytes. -/
theorem byteAt_extract {b : ByteArray} {start stop i : Nat} (h : start + i < stop) :
    byteAt (b.extract start stop) i = byteAt b (start + i) := by
  rw [byteAt_eq, byteAt_eq, toBytes_extract, List.getElem?_drop, List.getElem?_take, if_pos h]

theorem drop_eq_nil_of_le {b : ByteArray} {i : Nat} (h : b.size ≤ i) : (toBytes b).drop i = [] :=
  List.drop_eq_nil_of_le (by simpa using h)

/-- What is left at an offset starts with the byte that is read there. -/
theorem drop_eq_cons_of_lt {b : ByteArray} {i : Nat} (h : i < b.size) :
    (toBytes b).drop i = byteAt b i :: (toBytes b).drop (i + 1) := by
  rw [List.drop_eq_getElem_cons (by simpa using h), byteAt_eq, List.getElem?_eq_getElem]
  rfl

/-- What stands at an offset, and what stands behind it. -/
theorem at_of_drop_eq {b : ByteArray} {i : Nat} {x : UInt8} {rest : List UInt8}
    (h : (toBytes b).drop i = x :: rest) :
    i < b.size ∧ byteAt b i = x ∧ (toBytes b).drop (i + 1) = rest := by
  have hi : i < b.size := by
    have hlen := congrArg List.length h
    rw [List.length_drop, length_toBytes, List.length_cons] at hlen
    omega
  rw [drop_eq_cons_of_lt hi, List.cons.injEq] at h
  exact ⟨hi, h⟩

/-- The search for a zero byte stops behind the bytes that are not zero. -/
theorem zeroFrom_eq {b : ByteArray} {i : Nat} (h : i ≤ b.size) :
    zeroFrom b i = i + (((toBytes b).drop i).takeWhile (· ≠ 0)).length := by
  have search : ∀ n i, i + n = b.size →
      zeroFrom.go b n i = i + (((toBytes b).drop i).takeWhile (· ≠ 0)).length := by
    intro n
    induction n with
    | zero =>
      intro i hn
      rw [drop_eq_nil_of_le (by omega)]
      rfl
    | succ n ih =>
      intro i hn
      rw [zeroFrom.go, drop_eq_cons_of_lt (by omega)]
      split
      · rename_i hzero
        rw [List.takeWhile_cons_of_neg (by simp [hzero]), List.length_nil, Nat.add_zero]
      · rename_i hne
        rw [ih (i + 1) (by omega), List.takeWhile_cons_of_pos (by simp [hne]), List.length_cons]
        omega
  exact search (b.size - i) i (by omega)

/-- What stands in front of the next zero byte. -/
theorem toBytes_extract_zeroFrom {b : ByteArray} {i : Nat} (h : i ≤ b.size) :
    toBytes (b.extract i (zeroFrom b i)) = ((toBytes b).drop i).takeWhile (· ≠ 0) := by
  rw [toBytes_extract, zeroFrom_eq h, List.drop_take, Nat.add_sub_cancel_left]
  exact (List.prefix_iff_eq_take.mp (List.takeWhile_prefix _)).symm

/-- The search for a zero byte ends at the first one. -/
theorem zeroFrom_of_drop_eq {b : ByteArray} {i : Nat} {front rest : List UInt8}
    (h : (toBytes b).drop i = front ++ 0 :: rest) (hfront : 0 ∉ front) :
    zeroFrom b i = i + front.length := by
  have hne : ∀ x ∈ front, decide (x ≠ 0) = true := fun x hx =>
    decide_eq_true fun hzero => hfront (hzero ▸ hx)
  have hle : i ≤ b.size := by
    have hlen := congrArg List.length h
    rw [List.length_drop, length_toBytes, List.length_append, List.length_cons] at hlen
    omega
  rw [zeroFrom_eq hle, h, List.takeWhile_append_of_pos hne, List.takeWhile_cons_of_neg (by decide),
    List.append_nil]

theorem toList_loop (b : ByteArray) (i : Nat) (before : List UInt8) :
    ByteArray.toList.loop b i before = before.reverse ++ (toBytes b).drop i := by
  rw [ByteArray.toList.loop]
  split_ifs with h
  · have hget : b.get! i = byteAt b i := by
      rw [byteAt_of_lt h]
      exact getElem!_pos b.data i h
    rw [toList_loop b (i + 1), drop_eq_cons_of_lt h, hget, List.reverse_cons, List.append_assoc,
      List.singleton_append]
  · rw [drop_eq_nil_of_le (Nat.le_of_not_lt h), List.append_nil]
termination_by b.size - i

theorem toList_eq (b : ByteArray) : b.toList = toBytes b := by
  rw [ByteArray.toList, toList_loop, List.reverse_nil, List.nil_append, List.drop_zero]

/-- The size of a byte string, counted from an offset. -/
theorem add_length_of_drop_eq {b : ByteArray} {i : Nat} {rest : List UInt8} (hi : i ≤ b.size)
    (h : (toBytes b).drop i = rest) : i + rest.length = b.size := by
  have hlen := congrArg List.length h
  rw [List.length_drop, length_toBytes] at hlen
  omega

/-- What stands behind bytes that were read. -/
theorem drop_add_of_drop_eq {b : ByteArray} {i : Nat} {front rest : List UInt8}
    (h : (toBytes b).drop i = front ++ rest) :
    (toBytes b).drop (i + front.length) = rest := by
  rw [← List.drop_drop, h, List.drop_left]

/-- The bytes behind an offset as a byte string. -/
theorem extract_of_drop_eq {b content : ByteArray} {i : Nat} {rest : List UInt8}
    (h : (toBytes b).drop i = toBytes content ++ rest) :
    b.extract i (i + content.size) = content := by
  rw [← toBytes_inj, toBytes_extract, List.drop_take, Nat.add_sub_cancel_left, h,
    ← length_toBytes content, List.take_left]

/-- What is left at an offset starts with the bytes of the word that is read there. -/
theorem drop_eq_littleEndian_append {b : ByteArray} {i : Nat} (h : i + 4 ≤ b.size) :
    (toBytes b).drop i = littleEndian (wordAt b i) ++ (toBytes b).drop (i + 4) := by
  rw [drop_eq_cons_of_lt (by omega), drop_eq_cons_of_lt (i := i + 1) (by omega),
    drop_eq_cons_of_lt (i := i + 2) (by omega), drop_eq_cons_of_lt (i := i + 3) (by omega),
    wordAt, littleEndian_word]
  rfl

/-- The word that is read is the one whose bytes stand there. -/
theorem wordAt_of_drop_eq {b : ByteArray} {i : Nat} {w : UInt32} {rest : List UInt8}
    (h : (toBytes b).drop i = littleEndian w ++ rest) : wordAt b i = w := by
  have hlen := congrArg List.length h
  simp only [List.length_drop, length_toBytes, List.length_append, length_littleEndian] at hlen
  rw [drop_eq_littleEndian_append (by omega)] at h
  exact littleEndian_inj (List.append_inj h rfl).1

/-! ### Writing at an offset -/

/-- Byte strings of one size are equal if they agree at every offset. -/
theorem ext_byteAt {a b : ByteArray} (hsize : a.size = b.size)
    (h : ∀ i < a.size, byteAt a i = byteAt b i) : a = b := by
  rw [← toBytes_inj]
  refine List.ext_getElem (by simpa using hsize) fun i ha hb => ?_
  have hi := h i (by simpa using ha)
  rwa [byteAt_eq, byteAt_eq, List.getElem?_eq_getElem ha, List.getElem?_eq_getElem hb] at hi

theorem byteAt_set {b : ByteArray} {i : Nat} {x : UInt8} (h : i < b.size) (j : Nat) :
    byteAt (b.set i x h) j = if j = i then x else byteAt b j := by
  rw [byteAt_eq, byteAt_eq, toBytes, ByteArray.data_set, Array.toList_set, List.getElem?_set]
  by_cases hj : j = i
  · subst hj
    rw [if_pos rfl, if_pos (show j < b.data.toList.length from h), if_pos rfl]
    rfl
  · rw [if_neg (fun hij => hj hij.symm), if_neg hj]
    rfl

theorem byteAt_setPair {b : ByteArray} {i : Nat} {x y : UInt8} (h : i + 2 ≤ b.size) (j : Nat) :
    byteAt (setPair b i x y h) j
      = if j = i then x else if j = i + 1 then y else byteAt b j := by
  rw [setPair, byteAt_set, byteAt_set]
  by_cases hj : j = i
  · rw [if_neg (by omega), if_pos hj, if_pos hj]
  · rw [if_neg hj, if_neg hj]

theorem wordByte_wordAt (b : ByteArray) (i : Nat) :
    wordByte (wordAt b i) 0 = byteAt b i ∧ wordByte (wordAt b i) 1 = byteAt b (i + 1) ∧
      wordByte (wordAt b i) 2 = byteAt b (i + 2) ∧ wordByte (wordAt b i) 3 = byteAt b (i + 3) := by
  have h := littleEndian_word (byteAt b i) (byteAt b (i + 1)) (byteAt b (i + 2)) (byteAt b (i + 3))
  simpa only [wordAt, littleEndian, List.cons.injEq, and_true] using h

/-- Writing the word that is there changes nothing. -/
theorem setWord_wordAt {b : ByteArray} {i : Nat} (h : i + 4 ≤ b.size) :
    setWord b i (wordAt b i) h = b := by
  obtain ⟨h₀, h₁, h₂, h₃⟩ := wordByte_wordAt b i
  refine ext_byteAt (by simp) fun j _ => ?_
  rw [setWord, byteAt_setPair, byteAt_setPair, h₀, h₁, h₂, h₃]
  repeat' split
  all_goals first | rfl | (subst j; rfl)

/-- A word that was written is read back. -/
theorem wordAt_setWord {b : ByteArray} {i : Nat} {w : UInt32} (h : i + 4 ≤ b.size) :
    wordAt (setWord b i w h) i = w := by
  have hbyte : ∀ j, byteAt (setWord b i w h) (i + j)
      = if j = 2 then wordByte w 2 else if j = 3 then wordByte w 3
        else if j = 0 then wordByte w 0 else if j = 1 then wordByte w 1 else byteAt b (i + j) := by
    intro j
    rw [setWord, byteAt_setPair, byteAt_setPair]
    simp only [Nat.add_assoc, Nat.add_right_inj, Nat.add_eq_left, Nat.reduceAdd]
  rw [wordAt, show byteAt (setWord b i w h) i = wordByte w 0 from hbyte 0, hbyte, hbyte, hbyte]
  exact word_wordByte w

/-- Bytes beside a word that was written are as before. -/
theorem byteAt_setWord_of_outside {b : ByteArray} {i j : Nat} {w : UInt32} (h : i + 4 ≤ b.size)
    (hj : j < i ∨ i + 4 ≤ j) : byteAt (setWord b i w h) j = byteAt b j := by
  rw [setWord, byteAt_setPair, byteAt_setPair, if_neg (by omega), if_neg (by omega),
    if_neg (by omega), if_neg (by omega)]

theorem toBytes_set {b : ByteArray} {i : Nat} {x : UInt8} (h : i < b.size) :
    toBytes (b.set i x h) = (toBytes b).set i x := by
  rw [toBytes, ByteArray.data_set, Array.toList_set]
  rfl

/-- A byte takes the place of the one that it is written over. -/
theorem toBytes_set_of_eq {b : ByteArray} {i : Nat} {front rest : List UInt8} {old : UInt8}
    (x : UInt8) (h : i < b.size) (hi : front.length = i) (hb : toBytes b = front ++ old :: rest) :
    toBytes (b.set i x h) = front ++ x :: rest := by
  subst hi
  rw [toBytes_set, hb, List.set_append_right _ _ (Nat.le_refl _), Nat.sub_self, List.set_cons_zero]

theorem toBytes_setPair {b : ByteArray} {i : Nat} {front rest : List UInt8} {old₀ old₁ : UInt8}
    (x y : UInt8) (h : i + 2 ≤ b.size) (hi : front.length = i)
    (hb : toBytes b = front ++ old₀ :: old₁ :: rest) :
    toBytes (setPair b i x y h) = front ++ x :: y :: rest := by
  have hfirst := toBytes_set_of_eq x (by omega) hi hb
  rw [List.append_cons] at hfirst ⊢
  refine toBytes_set_of_eq y _ ?_ hfirst
  rw [List.length_append, hi, List.length_singleton]

/-- A word takes the place of the four bytes that it is written over. -/
theorem toBytes_setWord {b : ByteArray} {i : Nat} {front old rest : List UInt8} (w : UInt32)
    (h : i + 4 ≤ b.size) (hi : front.length = i) (hb : toBytes b = front ++ (old ++ rest))
    (hold : old.length = 4) : toBytes (setWord b i w h) = front ++ (littleEndian w ++ rest) := by
  obtain ⟨b₀, b₁, b₂, b₃, rfl⟩ : ∃ b₀ b₁ b₂ b₃, old = [b₀, b₁, b₂, b₃] := by
    match old, hold with
    | [b₀, b₁, b₂, b₃], _ => exact ⟨b₀, b₁, b₂, b₃, rfl⟩
  have hlow := toBytes_setPair (wordByte w 0) (wordByte w 1) (by omega) hi hb
  rw [List.append_cons, List.append_cons (front ++ [_])] at hlow
  rw [setWord, toBytes_setPair (wordByte w 2) (wordByte w 3) _ ?_ hlow]
  · simp [littleEndian]
  · rw [List.length_append, List.length_append, hi]
    rfl

theorem toBytes_overwrite (b s : ByteArray) (i : Nat) :
    toBytes (overwrite b i s)
      = (toBytes b).take i ++ (toBytes s ++ (toBytes b).drop (i + s.size)) := by
  have hs : s.data.size = s.size := rfl
  have hb : b.data.size = b.size := rfl
  rw [overwrite, ByteArray.copySlice_eq_append, toBytes_append, toBytes_append, toBytes_extract,
    toBytes_extract, toBytes_extract, List.append_assoc, hs, hb, Nat.sub_zero, Nat.min_self,
    Nat.zero_add, List.drop_zero, List.drop_zero]
  rw [List.take_of_length_le (i := s.size) (by simp),
    List.take_of_length_le (i := b.size) (by simp)]

/-- Overwritten bytes are the new ones inside the range and the old ones outside. -/
theorem byteAt_overwrite {b s : ByteArray} {i : Nat} (h : i + s.size ≤ b.size) (j : Nat) :
    byteAt (overwrite b i s) j
      = if i ≤ j ∧ j < i + s.size then byteAt s (j - i) else byteAt b j := by
  have htake : ((toBytes b).take i).length = i := by
    rw [List.length_take, length_toBytes]
    omega
  rw [byteAt_eq, byteAt_eq, byteAt_eq, toBytes_overwrite]
  by_cases hbefore : j < i
  · rw [if_neg (by omega), List.getElem?_append_left (by omega), List.getElem?_take, if_pos hbefore]
  · rw [List.getElem?_append_right (by omega), htake]
    by_cases hinside : j < i + s.size
    · rw [if_pos (by omega), List.getElem?_append_left (by rw [length_toBytes]; omega)]
    · rw [if_neg (by omega), List.getElem?_append_right (by rw [length_toBytes]; omega),
        length_toBytes, List.getElem?_drop]
      congr 2
      omega

end Bytes

end BytecodeHost
