import BytecodeHost.Encoding.Zstd
import BytecodeHost.Proofs.Bytes

/-!
# Reading what was written as Zstandard frames

A frame that is written has the size of its content and stored blocks, each with a header of three
bytes. Reading such a frame gives back the content, for every content that fits the limits of the
reader: however many blocks it has, the reader adds them up to the size that the header promises.

Everything is said about the bytes behind an offset, so that the position of a reader in a byte
string is the list of bytes that it has not read yet.

## Main definitions

* `Zstd.digits` — a number in little-endian order
* `Zstd.stored` — the blocks that are written for a content

## Main results

* `Zstd.readLE?_digits` — a number is read back
* `Zstd.readBlocks?_stored` — so are blocks
* `Zstd.decompress_storedFrame` — and a whole content
-/

namespace BytecodeHost

namespace Zstd

/-! ## Numbers -/

/-- A number in little-endian order. -/
def digits : (width n : Nat) → List UInt8
  | 0, _ => []
  | width + 1, n => n.toUInt8 :: digits width (n / 256)

@[simp] theorem length_digits (width n : Nat) : (digits width n).length = width := by
  induction width generalizing n with
  | zero => rfl
  | succ width ih => rw [digits, List.length_cons, ih]

theorem toBytes_pushLE (b : ByteArray) (width n : Nat) :
    Bytes.toBytes (pushLE b width n) = Bytes.toBytes b ++ digits width n := by
  induction width generalizing b n with
  | zero => simp [pushLE, digits]
  | succ width ih => simp [pushLE, digits, ih]

/-- **A number is read back** if it fits its width. -/
theorem readLE?_digits {b : ByteArray} {i width n : Nat} {rest : List UInt8} (hi : i ≤ b.size)
    (hn : n < 256 ^ width) (h : (Bytes.toBytes b).drop i = digits width n ++ rest) :
    readLE? b i width = some n := by
  have hsize := Bytes.add_length_of_drop_eq hi h
  rw [List.length_append, length_digits] at hsize
  rw [readLE?, if_neg (by omega)]
  congr 1
  induction width generalizing i n with
  | zero =>
    rw [Nat.pow_zero] at hn
    exact (Nat.lt_one_iff.mp hn).symm
  | succ width ih =>
    have hlt : i < b.size := by omega
    rw [Bytes.drop_eq_cons_of_lt hlt, digits, List.cons_append] at h
    obtain ⟨hbyte, hrest⟩ := List.cons.inj h
    have hn := Nat.div_lt_of_lt_mul (Nat.pow_succ' ▸ hn)
    have htail := ih (by omega) hn hrest (by omega)
    have hshift : (fun k rest => 256 * rest + (Bytes.byteAt b (i + k.succ)).toNat)
        = fun k rest => 256 * rest + (Bytes.byteAt b (i + 1 + k)).toNat := by
      funext k rest
      rw [Nat.add_succ, Nat.succ_add]
    rw [List.range_succ_eq_map, List.foldr_cons, List.foldr_map, hshift, htail, Nat.add_zero, hbyte]
    rw [show n.toUInt8.toNat = n % 256 from UInt8.toNat_ofNat']
    omega

/-! ## Blocks -/

/-- The stored blocks that are written for the bytes from an offset on. -/
def stored (src : ByteArray) : (fuel i : Nat) → List UInt8
  | 0, _ => []
  | fuel + 1, i =>
    let length := min maxBlock (src.size - i)
    digits 3 (8 * length + if src.size ≤ i + length then 1 else 0)
      ++ (Bytes.toBytes (src.extract i (i + length))
        ++ if src.size ≤ i + length then [] else stored src fuel (i + length))

theorem toBytes_pushBlocks (src : ByteArray) (fuel i : Nat) (out : ByteArray) :
    Bytes.toBytes (pushBlocks src fuel i out) = Bytes.toBytes out ++ stored src fuel i := by
  induction fuel generalizing i out with
  | zero => simp [pushBlocks, stored]
  | succ fuel ih =>
    rw [pushBlocks, stored]
    split
    · rw [Bytes.toBytes_append, toBytes_pushLE, List.append_assoc, List.append_nil]
    · rw [ih, Bytes.toBytes_append, toBytes_pushLE, List.append_assoc, List.append_assoc]

/-- Blocks are at least as long as what they store. -/
theorem le_length_stored {src : ByteArray} {fuel i : Nat} (h : src.size - i < fuel) :
    src.size - i ≤ (stored src fuel i).length := by
  induction fuel generalizing i with
  | zero => omega
  | succ fuel ih =>
    have hblock : 0 < maxBlock := by decide
    simp only [stored, List.length_append, length_digits, Bytes.length_toBytes,
      ByteArray.size_extract]
    split
    · omega
    · have := ih (i := i + min maxBlock (src.size - i)) (by omega)
      omega

section

variable {b : ByteArray} {header : FrameHeader} {limit wanted total : Nat}

/-- A stored block is read back. -/
theorem readBlocks?_block (hcontent : header.contentSize = some total) (hlimit : total ≤ limit)
    (hwanted : total < wanted) (content out : ByteArray) (hblock : content.size ≤ maxBlock)
    (hwindow : content.size ≤ header.window) (htotal : out.size + content.size ≤ total)
    {last : Nat} (hlast : last ≤ 1) {pos : Nat} (hpos : pos ≤ b.size) {rest : List UInt8}
    (h : (Bytes.toBytes b).drop pos
      = digits 3 (8 * content.size + last) ++ (Bytes.toBytes content ++ rest))
    (reads : Nat) (m : Memory) :
    readBlocks? b header limit wanted 0 (reads + 1) pos m out =
      if last = 1 then some (out ++ content, some (pos + 3 + content.size))
      else readBlocks? b header limit wanted 0 reads (pos + 3 + content.size) m
        (out ++ content) := by
  have hword : readLE? b pos 3 = some (8 * content.size + last) :=
    readLE?_digits hpos (by have : maxBlock = 131072 := rfl; omega) h
  have hbody := Bytes.drop_add_of_drop_eq h
  rw [length_digits] at hbody
  have hsize := Bytes.add_length_of_drop_eq hpos h
  simp only [List.length_append, length_digits, Bytes.length_toBytes] at hsize
  have hread : readBlock? b header 0 0 content.size (pos + 3) m out
      = some (out ++ content, m, pos + 3 + content.size) := by
    rw [readBlock?, if_neg (by omega), Bytes.extract_of_drop_eq hbody]
  -- the parts of the block header
  have hlength : (8 * content.size + last) / 8 = content.size := by omega
  have hkind : (8 * content.size + last) / 2 % 4 = 0 := by omega
  have hbit : (8 * content.size + last) % 2 = last := by omega
  rw [readBlocks?, hword]
  simp only [bind, Option.bind, hcontent, Option.any_some, decide_eq_true_eq, hlength, hkind, hbit,
    hread, ByteArray.size_append]
  rw [if_neg (by omega), if_neg (by omega), if_neg (by omega), if_neg (by omega),
    if_neg (show ¬wanted ≤ out.size + content.size by omega)]

/-- **Blocks are read back.** The reader has the content up to an offset, and what it has not read
are the blocks from there on. -/
theorem readBlocks?_stored {src : ByteArray} (hcontent : header.contentSize = some src.size)
    (hlimit : src.size ≤ limit) (hwanted : src.size < wanted) (hwindow : src.size ≤ header.window)
    {m : Memory} {writes reads i pos : Nat} (hi : i < src.size) (hwrites : src.size - i < writes)
    (hreads : src.size - i < reads) (hpos : pos ≤ b.size)
    (h : (Bytes.toBytes b).drop pos = stored src writes i) :
    readBlocks? b header limit wanted 0 reads pos m (src.extract 0 i)
      = some (src, some b.size) := by
  induction writes generalizing reads i pos with
  | zero => omega
  | succ writes ih =>
    obtain ⟨reads, rfl⟩ : ∃ k, reads = k + 1 := ⟨reads - 1, by omega⟩
    rw [stored] at h
    generalize hlength : min maxBlock (src.size - i) = length at h
    have hblock : 0 < length := by
      have : 0 < maxBlock := by decide
      omega
    have hsize : (src.extract i (i + length)).size = length := by
      rw [ByteArray.size_extract]
      omega
    have hout : (src.extract 0 i).size = i := by
      rw [ByteArray.size_extract]
      omega
    have happend : src.extract 0 i ++ src.extract i (i + length) = src.extract 0 (i + length) := by
      simp
    have hstep : ∀ last ≤ 1, ∀ rest, (Bytes.toBytes b).drop pos = digits 3 (8 * length + last)
        ++ (Bytes.toBytes (src.extract i (i + length)) ++ rest) →
        readBlocks? b header limit wanted 0 (reads + 1) pos m (src.extract 0 i) =
          if last = 1 then some (src.extract 0 (i + length), some (pos + 3 + length))
          else readBlocks? b header limit wanted 0 reads (pos + 3 + length) m
            (src.extract 0 (i + length)) := by
      intro last hlast rest h
      have hread := readBlocks?_block hcontent hlimit hwanted (src.extract i (i + length))
        (src.extract 0 i) (by omega) (by omega) (by omega) hlast hpos (by rw [hsize]; exact h)
        reads m
      rwa [hsize, happend] at hread
    by_cases hlast : src.size ≤ i + length
    · simp only [if_pos hlast] at h
      have hend := Bytes.add_length_of_drop_eq hpos h
      simp only [List.length_append, length_digits, Bytes.length_toBytes, hsize,
        List.length_nil] at hend
      have hall : i + length = src.size := by omega
      rw [hstep 1 (Nat.le_refl 1) [] h, if_pos rfl, hall, ByteArray.extract_zero_size]
      congr 3
      omega
    · simp only [if_neg hlast] at h
      rw [hstep 0 (Nat.zero_le 1) _ h, if_neg (by decide)]
      have hrest := Bytes.drop_add_of_drop_eq (Bytes.drop_add_of_drop_eq h)
      rw [length_digits, Bytes.length_toBytes, hsize] at hrest
      have hend := Bytes.add_length_of_drop_eq hpos h
      simp only [List.length_append, length_digits, Bytes.length_toBytes, hsize] at hend
      exact ih (by omega) (by omega) (by omega) (by omega) hrest

end

/-! ## Frames -/

/-- The bytes that are written for a content that is not empty. -/
theorem toBytes_storedFrame {src : ByteArray} (hsrc : src.size ≠ 0) :
    Bytes.toBytes (storedFrame src) = digits 4 frameMagic.toNat
      ++ (digits 1 0xE0 ++ (digits 8 src.size ++ stored src (src.size + 1) 0)) := by
  rw [storedFrame, if_neg hsrc, toBytes_pushBlocks, toBytes_pushLE, Bytes.toBytes_push,
    toBytes_pushLE]
  simp only [List.append_assoc]
  rfl

/-- A content grows by the headers of its blocks. -/
theorem length_stored_le (src : ByteArray) (fuel i : Nat) :
    (stored src fuel i).length ≤ src.size - i + 3 * fuel := by
  induction fuel generalizing i with
  | zero => exact Nat.zero_le _
  | succ fuel ih =>
    have hrest := ih (i + min maxBlock (src.size - i))
    simp only [stored, List.length_append, length_digits, Bytes.length_toBytes,
      ByteArray.size_extract]
    split
    · rw [List.length_nil]
      omega
    · omega

theorem size_storedFrame_le (src : ByteArray) : (storedFrame src).size ≤ 4 * src.size + 16 := by
  by_cases hsrc : src.size = 0
  · rw [ByteArray.size_eq_zero_iff.mp hsrc]
    decide
  · have hbytes := congrArg List.length (toBytes_storedFrame hsrc)
    have hstored := length_stored_le src (src.size + 1) 0
    simp only [List.length_append, length_digits, Bytes.length_toBytes] at hbytes
    omega

/-- The header of a frame is read back. -/
theorem readHeader?_of_drop {b : ByteArray} {limit size : Nat} {rest : List UInt8}
    (hlimit : size ≤ limit) (hmin : minWindow ≤ limit) (hmax : size ≤ maxWindow)
    (hb : 4 ≤ b.size)
    (h : (Bytes.toBytes b).drop 4 = digits 1 0xE0 ++ (digits 8 size ++ rest)) :
    ∃ header, readHeader? b 4 limit = some header ∧ header.start = 13 ∧
      header.contentSize = some size ∧ size ≤ header.window ∧ header.hasChecksum = false := by
  have hwindows : minWindow = 1024 ∧ maxWindow = 2 ^ 29 := by decide
  have hdescriptor : readLE? b 4 1 = some 0xE0 := readLE?_digits hb (by decide) h
  have hend := Bytes.add_length_of_drop_eq hb h
  simp only [List.length_append, length_digits] at hend
  have hnone : readLE? b 5 0 = some 0 := by
    rw [readLE?, if_neg (by omega)]
    rfl
  have hsize : readLE? b 5 8 = some size :=
    readLE?_digits (by omega) (by omega) (Bytes.drop_add_of_drop_eq h)
  have hknown : size ≠ unknownSize := by
    have : unknownSize = 2 ^ 64 - 1 := by decide
    omega
  have hwindow : ¬(max size minWindow < minWindow ∨ maxWindow < max size minWindow ∨
      limit < max size minWindow) := by omega
  refine ⟨⟨13, max size minWindow, some size, false⟩, ?_, rfl, rfl, Nat.le_max_left _ _, rfl⟩
  rw [readHeader?, hdescriptor]
  simp only [bind, Option.bind, Nat.reduceDiv, Nat.reduceMod, if_pos, hnone, hsize]
  simp only [reduceIte, Nat.reduceEqDiff, hwindow, hknown]
  rfl

/-- **A content is read back** if the reader's limits allow it. -/
theorem decompress_storedFrame {limit : Nat} {src : ByteArray} (hlimit : src.size ≤ limit)
    (hmin : minWindow ≤ limit) (hmax : src.size ≤ maxWindow) :
    decompress limit (storedFrame src) = some src := by
  by_cases hsrc : src.size = 0
  · obtain rfl := ByteArray.size_eq_zero_iff.mp hsrc
    rfl
  · have hbytes := toBytes_storedFrame hsrc
    generalize storedFrame src = b at hbytes
    have hsize := congrArg List.length hbytes
    simp only [List.length_append, length_digits, Bytes.length_toBytes] at hsize
    have hmagic : readLE? b 0 4 = some frameMagic.toNat :=
      readLE?_digits (Nat.zero_le _) (by decide) hbytes
    have hrest := Bytes.drop_add_of_drop_eq (i := 0) hbytes
    obtain ⟨header, hheader, hstart, hcontent, hwindow, hchecksum⟩ :=
      readHeader?_of_drop hlimit hmin hmax (by omega) hrest
    have hstored : src.size - 0 ≤ (stored src (src.size + 1) 0).length :=
      le_length_stored (Nat.lt_succ_self _)
    have hblocks := Bytes.drop_add_of_drop_eq (Bytes.drop_add_of_drop_eq hrest)
    simp only [length_digits] at hblocks
    have hread := fun m => readBlocks?_stored hcontent hlimit (Nat.lt_succ_of_le hlimit) hwindow
      (m := m) (Nat.pos_of_ne_zero hsrc) (Nat.lt_succ_self _)
      (show src.size - 0 < b.size by omega) (show 13 ≤ b.size by omega) hblocks
    rw [ByteArray.extract_same] at hread
    have hframe : readFrame? b limit (limit + 1) 4 .empty = some (src, some b.size) := by
      have hclose : header.close? b 0 (src, some b.size) = some (src, some b.size) := by
        simp [FrameHeader.close?, hcontent, hchecksum]
      rw [readFrame?, hheader]
      simp only [bind, Option.bind, ByteArray.size_empty, hcontent, Option.any_some,
        decide_eq_true_eq, hstart, hread, hclose]
      rw [if_neg (by omega)]
    have hdone : readFrames? b limit (limit + 1) b.size b.size src = some src := by
      obtain ⟨k, hk⟩ : ∃ k, b.size = k + 1 := ⟨b.size - 1, by omega⟩
      rw [hk, readFrames?, if_pos (.inl (by omega))]
    rw [decompress, readFrames?, if_neg (by rw [ByteArray.size_empty]; omega), hmagic]
    simp only [bind, Option.bind, hframe, hdone]
    rw [if_neg (by decide), if_neg (by decide)]

instance : LawfulCompressor where
  decompress_compress := decompress_storedFrame
  size_compress_le src := Nat.le_trans (size_storedFrame_le src) (Nat.add_le_add_left (by decide) _)

end Zstd

end BytecodeHost
