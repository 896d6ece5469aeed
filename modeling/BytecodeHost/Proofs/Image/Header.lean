import BytecodeHost.Image.Header
import BytecodeHost.Proofs.Bytes
import BytecodeHost.Proofs.Checked

/-!
# Headers as bytes

A header is eight words in a row, seven of them signed. It is written into a buffer of zeros, each
field at an offset of its own, and read field by field from the same offsets. Only the offsets say
which field is which: a field at a wrong one would take the place of another, or leave a gap of
zeros, and headers with many equal fields would not show it.

Both directions are compared with the list of words between them. The bytes of a header are those of
its words, and the words of a header that was read are the first eight of the byte string. What
remains is about any number of words. Neither direction judges the fields, so no condition on a
header is needed, and of a byte string only that it is long enough.

## Main definitions

* `Bytes.wordsFrom` — words that are read one after another
* `Checked.encode`, `Checked.decode` — writing and reading field by field, with every access checked

## Main results

* `Bytes.wordsFrom_of_drop_eq`, `Bytes.flatMap_littleEndian_wordsFrom` — words in a row and their
  bytes determine each other
* `Checked.encode_eq_ok`, `Checked.decode_eq_ok` — both directions stay in range
* `Header.decode_encode_append` — a header is read back from the image that it is written to
* `Header.encode_decode` — the bytes that a header is read from are written back
* `Header.decode_inverts_encode` — headers and byte strings of their size determine each other
-/

namespace BytecodeHost

/-! ## Words in a row -/

namespace Bytes

/-- The little-endian words from an offset on. -/
def wordsFrom (b : ByteArray) : (i n : Nat) → List UInt32
  | _, 0 => []
  | i, n + 1 => wordAt b i :: wordsFrom b (i + 4) n

/-- Words whose bytes stand at an offset are read there. -/
theorem wordsFrom_of_drop_eq {b : ByteArray} {i : Nat} {ws : List UInt32} {rest : List UInt8}
    (h : (toBytes b).drop i = ws.flatMap littleEndian ++ rest) : wordsFrom b i ws.length = ws := by
  induction ws generalizing i with
  | nil => rfl
  | cons w ws ih =>
    rw [List.flatMap_cons, List.append_assoc] at h
    have hrest : (toBytes b).drop (i + 4) = ws.flatMap littleEndian ++ rest :=
      drop_add_of_drop_eq h
    rw [List.length_cons, wordsFrom, wordAt_of_drop_eq h, ih hrest]

/-- Words that are read have the bytes that stand there. -/
theorem flatMap_littleEndian_wordsFrom {b : ByteArray} {i n : Nat} (h : i + 4 * n ≤ b.size) :
    (wordsFrom b i n).flatMap littleEndian = ((toBytes b).drop i).take (4 * n) := by
  induction n generalizing i with
  | zero => rfl
  | succ n ih =>
    have hlength : 4 * (n + 1) = (littleEndian (wordAt b i)).length + 4 * n := by
      rw [length_littleEndian]
      omega
    have hroom : i + 4 ≤ b.size := by omega
    rw [wordsFrom, List.flatMap_cons, ih (by omega), drop_eq_littleEndian_append hroom, hlength,
      List.take_length_add_append]

end Bytes

/-! ## Writing -/

namespace Header

theorem toBytes_foldl_pushWord (ws : List UInt32) (b : ByteArray) :
    Bytes.toBytes (ws.foldl Bytes.pushWord b)
      = Bytes.toBytes b ++ ws.flatMap Bytes.littleEndian := by
  induction ws generalizing b with
  | nil => simp
  | cons w ws ih => simp [ih]

theorem length_flatMap_littleEndian (ws : List UInt32) :
    (ws.flatMap Bytes.littleEndian).length = 4 * ws.length := by
  induction ws with
  | nil => rfl
  | cons w ws ih =>
    rw [List.flatMap_cons, List.length_append, ih, Bytes.length_littleEndian, List.length_cons]
    omega

theorem toBytes_encode (h : Header) :
    Bytes.toBytes h.encode = h.words.flatMap Bytes.littleEndian := by
  rw [encode, toBytes_foldl_pushWord]
  rfl

@[simp] theorem size_encode (h : Header) : h.encode.size = 32 := by
  rw [← Bytes.length_toBytes, toBytes_encode, length_flatMap_littleEndian]
  rfl

end Header

namespace Checked

/-- A header, written field by field over zeros. -/
def encode (h : Header) : Except Violation ByteArray := do
  let b ← setWord (Bytes.zeros Header.byteSize) 0 h.magic
  let b ← setWord b 4 h.instructionCount.toUInt32
  let b ← setWord b 8 h.codeOffset.toUInt32
  let b ← setWord b 12 h.codeLength.toUInt32
  let b ← setWord b 16 h.dataOffset.toUInt32
  let b ← setWord b 20 h.dataLength.toUInt32
  let b ← setWord b 24 h.litLength.toUInt32
  setWord b 28 h.bssLength.toUInt32

/-- A word that is written where the zeros begin is one word more in front of them. -/
theorem setWord_append_zeros {front : ByteArray} {i : Nat} (n : Nat) (w : UInt32)
    (hi : front.size = i) :
    setWord (front ++ Bytes.zeros (n + 4)) i w
      = .ok (Bytes.pushWord front w ++ Bytes.zeros n) := by
  have hbytes : Bytes.toBytes (front ++ Bytes.zeros (n + 4))
      = Bytes.toBytes front ++ (List.replicate 4 0 ++ List.replicate n 0) := by
    rw [Bytes.toBytes_append, Bytes.toBytes_zeros, Nat.add_comm, List.replicate_append_replicate]
  have hroom : i + 4 ≤ (front ++ Bytes.zeros (n + 4)).size := by
    rw [ByteArray.size_append, Bytes.size_zeros]
    omega
  have hfront : (Bytes.toBytes front).length = i := hi
  rw [setWord_eq_ok w hroom, Except.ok.injEq, ← Bytes.toBytes_inj,
    Bytes.toBytes_setWord w hroom hfront hbytes rfl, Bytes.toBytes_append, Bytes.toBytes_pushWord,
    Bytes.toBytes_zeros, List.append_assoc]

/-- **Writing a header stays in range**, and the fields lie next to each other. -/
theorem encode_eq_ok (h : Header) : encode h = .ok h.encode := by
  have hstart : Bytes.zeros Header.byteSize = .empty ++ Bytes.zeros 32 :=
    ByteArray.empty_append.symm
  rw [encode, hstart, setWord_append_zeros 28, ok_bind, setWord_append_zeros 24, ok_bind,
    setWord_append_zeros 20, ok_bind, setWord_append_zeros 16, ok_bind, setWord_append_zeros 12,
    ok_bind, setWord_append_zeros 8, ok_bind, setWord_append_zeros 4, ok_bind,
    setWord_append_zeros 0]
  · exact congrArg Except.ok ByteArray.append_empty
  -- the offsets of the fields are the sizes of what stands in front of them
  all_goals simp

/-! ## Reading -/

/-- The header in the first bytes of an image. -/
def decode (b : ByteArray) : Except Violation Header := do
  let magic ← wordAt b 0
  let instructionCount ← wordAt b 4
  let codeOffset ← wordAt b 8
  let codeLength ← wordAt b 12
  let dataOffset ← wordAt b 16
  let dataLength ← wordAt b 20
  let litLength ← wordAt b 24
  let bssLength ← wordAt b 28
  return ⟨magic, instructionCount.toInt32, codeOffset.toInt32, codeLength.toInt32,
    dataOffset.toInt32, dataLength.toInt32, litLength.toInt32, bssLength.toInt32⟩

theorem decode_eq_ok {b : ByteArray} (h : 32 ≤ b.size) : decode b = .ok (Header.decode b) := by
  have word : ∀ i ≤ 28, wordAt b i = .ok (Bytes.wordAt b i) := fun i hi => wordAt_eq_ok (by omega)
  simp only [decode, word 0 (by omega), word 4 (by omega), word 8 (by omega), word 12 (by omega),
    word 16 (by omega), word 20 (by omega), word 24 (by omega), word 28 (by omega), ok_bind]
  rfl

end Checked

namespace Header

/-- A header is known from its words, signed ones included. -/
theorem words_inj {h h' : Header} : h.words = h'.words ↔ h = h' := by
  have signed : ∀ {x y : Int32}, x.toUInt32 = y.toUInt32 ↔ x = y := fun {x y} =>
    ⟨fun hxy => by rw [← x.toInt32_toUInt32, hxy, y.toInt32_toUInt32], congrArg _⟩
  cases h
  cases h'
  simp only [words, List.cons.injEq, signed, and_true, mk.injEq]

theorem words_decode (b : ByteArray) : (decode b).words = Bytes.wordsFrom b 0 8 := by
  simp [words, decode, Bytes.wordsFrom]

/-- **A header is read back** from whatever image starts with it. -/
theorem decode_encode_append (h : Header) (rest : ByteArray) : decode (h.encode ++ rest) = h := by
  have hbytes : (Bytes.toBytes (h.encode ++ rest)).drop 0
      = h.words.flatMap Bytes.littleEndian ++ Bytes.toBytes rest := by
    rw [List.drop_zero, Bytes.toBytes_append, toBytes_encode]
  rw [← words_inj, words_decode]
  exact Bytes.wordsFrom_of_drop_eq hbytes

/-- **The bytes that a header is read from are written back.** -/
theorem encode_decode {b : ByteArray} (h : 32 ≤ b.size) : (decode b).encode = b.extract 0 32 := by
  rw [← Bytes.toBytes_inj, toBytes_encode, words_decode, Bytes.flatMap_littleEndian_wordsFrom h,
    Bytes.toBytes_extract, List.drop_zero, List.drop_zero]

/-! ## Both directions -/

/-- **Headers and byte strings of their size determine each other.** Every header, whatever its
fields are, is written into 32 bytes, none of them outside the buffer, and it is read back unchanged
from any byte string that starts with them. Every byte string of at least 32 bytes can be read, and
what is read is written as exactly the first 32 of them. -/
theorem decode_inverts_encode :
    (∀ h : Header, Checked.encode h = .ok h.encode ∧ h.encode.size = 32 ∧
      ∀ rest : ByteArray, Checked.decode (h.encode ++ rest) = .ok h ∧
        decode (h.encode ++ rest) = h) ∧
    ∀ b : ByteArray, 32 ≤ b.size →
      Checked.decode b = .ok (decode b) ∧ (decode b).encode = b.extract 0 32 := by
  constructor
  · intro h
    refine ⟨Checked.encode_eq_ok h, size_encode h, fun rest => ?_⟩
    have hback : decode (h.encode ++ rest) = h := decode_encode_append h rest
    have hsize : 32 ≤ (h.encode ++ rest).size := by
      rw [ByteArray.size_append, size_encode]
      omega
    exact ⟨by rw [Checked.decode_eq_ok hsize, hback], hback⟩
  · intro b hsize
    exact ⟨Checked.decode_eq_ok hsize, encode_decode hsize⟩

/-- Thirty-four bytes that count down from the largest one. -/
def countdown : ByteArray :=
  ⟨(Array.range 34).map fun i => 255 - UInt8.ofNat i⟩

/-- No two of the bytes are equal, and as fields all words but the magic number are negative. They
are written as they were read, without the last two bytes. -/
theorem decode_inverts_encode_countdown :
    32 ≤ countdown.size ∧
    decode countdown = ⟨0xfcfdfeff, -117835013, -185207049, -252579085, -319951121, -387323157,
      -454695193, -522067229⟩ ∧
    Checked.decode countdown = .ok (decode countdown) ∧
    (decode countdown).encode = countdown.extract 0 32 := by
  have hsize : 32 ≤ countdown.size := by decide +kernel
  exact ⟨hsize, by decide +kernel, decode_inverts_encode.2 countdown hsize⟩

end Header

end BytecodeHost
