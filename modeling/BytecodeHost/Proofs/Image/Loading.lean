import BytecodeHost.Proofs.Arena
import BytecodeHost.Proofs.Image.Format
import BytecodeHost.Proofs.Image.Header
import BytecodeHost.Proofs.Program.Expansion

/-!
# Loading stays in range

Any bytes may be handed to the loader, so nothing it reads can be trusted before it is checked. It
reads a header from an image that is long enough, cuts sections at sums of header fields, writes the
data words into the arena one by one, and prepares the program in arrays of a fixed size. Here it
is written with every access and every signed sum checked, and with the loops in the order in which
they touch memory. No check ever fails, and the result is that of `Module.load`.

The data words are copied twice, once as bytes and once as words. The second copy writes what is
there already, so it only matters for staying in range.

## Main definitions

* `Checked.parse`, `Checked.sectionBytes`, `Checked.storeData`, `Checked.load`

## Main results

* `Checked.sectionBytes_eq_ok` — sections of a header that fits lie in the image
* `Checked.storeData_eq_ok` — the second copy of the data changes nothing
* `Checked.load_eq_ok` — loading stays in range
* `Module.load_iff_format` — what loading accepts, and how it fails otherwise
-/

namespace BytecodeHost

namespace Checked

/-! ## Headers -/

/-- The header of an image, if it is acceptable. -/
def parse (image : ByteArray) : Except Violation (Except LoadError Header) := do
  if image.size ≤ Header.byteSize then
    return .error (.tooShort image.size)
  else if maxImageSize < image.size then
    return .error (.tooLong image.size)
  else
    let h ← decode image
    if h.magic ≠ Header.moduleMagic then
      return .error (.badMagic h.magic)
    else
      match h.check image.size with
      | .error e => return .error e
      | .ok () => return .ok h

theorem parse_eq_ok (image : ByteArray) : parse image = .ok (Header.parse image) := by
  rw [parse, Header.parse]
  split
  · rfl
  · rename_i hshort
    have hsize : 32 ≤ image.size := Nat.le_of_lt (Nat.lt_of_not_le hshort)
    split
    · rfl
    · rw [decode_eq_ok hsize, ok_bind]
      dsimp only
      split
      · rfl
      · cases (Header.decode image).check image.size <;> rfl

/-! ## Sections -/

/-- A signed word and further ones, added up from left to right. -/
def sum (start : Int) : List Int32 → Except Violation Int
  | [] => .ok start
  | n :: ns => do
    signed (start + n.toInt)
    sum (start + n.toInt) ns

/-- The bytes from an offset on, up to the sum of the offset and some lengths. -/
def sectionBytes (image : ByteArray) (offset : Int32) (lengths : List Int32) :
    Except Violation ByteArray := do
  let stop ← sum offset.toInt lengths
  range image offset.toInt stop
  return image.extract offset.toInt.toNat stop.toNat

/-- A sum of lengths does not overflow if its value does not. -/
theorem sum_eq_ok {start : Int} {lengths : List Int32} (hstart : 0 ≤ start)
    (hlengths : ∀ n ∈ lengths, 0 ≤ n.toInt)
    (htotal : start + (lengths.map Int32.toInt).sum < 2 ^ 31) :
    sum start lengths = .ok (start + (lengths.map Int32.toInt).sum) ∧
      start ≤ start + (lengths.map Int32.toInt).sum := by
  induction lengths generalizing start with
  | nil => simp [sum]
  | cons n ns ih =>
    have hn : 0 ≤ n.toInt := hlengths n (by simp)
    rw [List.map_cons, List.sum_cons, ← Int.add_assoc] at htotal ⊢
    obtain ⟨hsum, hle⟩ := ih (show 0 ≤ start + n.toInt by omega)
      (fun m hm => hlengths m (by simp [hm])) htotal
    rw [sum, signed_eq_ok (by omega) (by omega), ok_bind, hsum]
    exact ⟨rfl, by omega⟩

/-- **A section that fits is cut without overflow and in range.** -/
theorem sectionBytes_eq_ok {image : ByteArray} {offset : Int32} {lengths : List Int32}
    (hoffset : 0 ≤ offset.toInt) (hlengths : ∀ n ∈ lengths, 0 ≤ n.toInt)
    (hfits : offset.toInt + (lengths.map Int32.toInt).sum ≤ image.size)
    (hsize : image.size ≤ 4 * 2 ^ 20) :
    sectionBytes image offset lengths = .ok (image.extract offset.toInt.toNat
      (offset.toInt + (lengths.map Int32.toInt).sum).toNat) := by
  obtain ⟨hsum, hle⟩ := sum_eq_ok hoffset hlengths (by omega)
  rw [sectionBytes, hsum, ok_bind, range_eq_ok hoffset hle hfits]
  rfl

theorem codeBytes_eq_ok {image : ByteArray} {h : Header} (ha : h.Acceptable image.size)
    (hsize : image.size ≤ 4 * 2 ^ 20) :
    sectionBytes image h.codeOffset [h.codeLength] = .ok (h.codeBytes image) := by
  obtain ⟨-, hoff, hlen, -, -, -, -, -, hle, -⟩ := ha
  rw [sectionBytes_eq_ok hoff (by simp; omega) (by simp; omega) hsize, Header.codeBytes,
    Header.sectionBytes]
  congr 2
  simp only [List.map_cons, List.map_nil, List.sum_cons, List.sum_nil]
  omega

/-- The initialized data has the length of its two parts. -/
theorem toInt_dataLength_add_litLength {h : Header} {size : Nat} (ha : h.Acceptable size)
    (hsize : size ≤ 4 * 2 ^ 20) :
    (h.dataLength + h.litLength).toInt = h.dataLength.toInt + h.litLength.toInt := by
  obtain ⟨-, -, -, hoff, hdata, hlit, -, -, -, hle⟩ := ha
  rw [Int32.toInt_add]
  exact Int.bmod_eq_of_le (by omega) (by omega)

theorem dataBytes_eq_ok {image : ByteArray} {h : Header} (ha : h.Acceptable image.size)
    (hsize : image.size ≤ 4 * 2 ^ 20) :
    sectionBytes image h.dataOffset [h.dataLength, h.litLength] = .ok (h.dataBytes image) := by
  have hadd := toInt_dataLength_add_litLength ha hsize
  obtain ⟨-, -, -, hoff, hdata, hlit, -, -, -, hle⟩ := ha
  rw [sectionBytes_eq_ok hoff (by simp; omega) (by simp; omega) hsize, Header.dataBytes,
    Header.sectionBytes, hadd]
  congr 2
  simp only [List.map_cons, List.map_nil, List.sum_cons, List.sum_nil]
  omega

/-! ## Arenas -/

/-- Stores the data words from an offset on, as far as `length` bytes go. -/
def storeData (src : ByteArray) (length i : Nat) (a : Arena) : Except Violation Arena := do
  signed (i + 4)
  if i + 4 ≤ length then
    let w ← wordAt src i
    let a ← store4 a (UInt32.ofNat i) w
    storeData src length (i + 4) a
  else
    return a
termination_by length - i

/-- Storing words that are there already changes nothing. -/
theorem storeData_eq_ok {src : ByteArray} {length : Nat} {a : Arena} (hsrc : length ≤ src.size)
    (hsmall : length + 4 < 2 ^ 31) (hfits : length ≤ a.mask.toNat + 1)
    (hsame : ∀ j < length, Bytes.byteAt a.bytes j = Bytes.byteAt src j) {i : Nat}
    (hi : i ≤ length) :
    storeData src length i a = .ok a := by
  induction hleft : length - i using Nat.strongRecOn generalizing i with
  | ind left ih =>
    have hindex : ∀ j < length, a.index (UInt32.ofNat j) = j := by
      intro j hj
      have hmod : (UInt32.ofNat j).toNat = j := by
        rw [UInt32.toNat_ofNat']
        exact Nat.mod_eq_of_lt (by omega)
      rw [Arena.index_of_le (by omega), hmod]
    rw [storeData.eq_def, signed_eq_ok (by omega) (by omega), ok_bind]
    by_cases hnext : i + 4 ≤ length
    · have hword : Bytes.wordAt src i = a.load4 (UInt32.ofNat i) := by
        rw [Arena.load4_eq, hindex i (by omega), Bytes.wordAt, Bytes.wordAt, hsame i (by omega),
          hsame (i + 1) (by omega), hsame (i + 2) (by omega), hsame (i + 3) (by omega)]
      rw [if_pos hnext, wordAt_eq_ok (by omega), ok_bind, store4_eq_ok, ok_bind, hword,
        Arena.store4_load4]
      exact ih (length - (i + 4)) (by omega) hnext rfl
    · rw [if_neg hnext]
      rfl

/-- The arena that a module starts with. -/
def buildArena (h : Header) (image : ByteArray) : Except Violation (Except Arena.Error Arena) := do
  match Arena.new h.arenaSize with
  | .error e => return .error e
  | .ok arena =>
    let src ← sectionBytes image h.dataOffset [h.dataLength, h.litLength]
    let arena ← storeData src h.dataLength.toInt.toNat 0 (arena.write 0 src)
    return .ok arena

theorem buildArena_eq_ok {image : ByteArray} {h : Header} (ha : h.Acceptable image.size)
    (hsize : image.size ≤ 4 * 2 ^ 20) : buildArena h image = .ok (h.buildArena image) := by
  obtain ⟨a, hnew, hfits, -⟩ := Header.exists_new_arenaSize ha hsize
  rw [buildArena, Header.buildArena, hnew]
  dsimp only
  rw [dataBytes_eq_ok ha hsize, ok_bind]
  have hadd := toInt_dataLength_add_litLength ha hsize
  obtain ⟨-, -, -, hoff, hdata, hlit, hbss, -, -, hle⟩ := ha
  have hlen : ((h.dataBytes image).size : Int) = h.dataLength.toInt + h.litLength.toInt := by
    rw [Header.dataBytes, Header.sectionBytes, ByteArray.size_extract, hadd]
    omega
  have hroom : 0 + (h.dataBytes image).size ≤ a.bytes.size := by
    rw [a.size_bytes]
    omega
  rw [storeData_eq_ok (by omega) (by omega) (by rw [Arena.mask_write]; omega) ?_ (Nat.zero_le _)]
  · rfl
  · intro j hj
    rw [Arena.bytes_write hroom, Bytes.byteAt_overwrite hroom, if_pos (by omega), Nat.sub_zero]

/-! ## Modules -/

/-- Loads a module from an image. -/
def load (name : String) (image : ByteArray) : Except Violation (Except LoadError Module) := do
  match ← parse image with
  | .error e => return .error e
  | .ok header =>
    match ← buildArena header image with
    | .error e => return .error (.arena e)
    | .ok arena =>
      let src ← sectionBytes image header.codeOffset [header.codeLength]
      match ← prepare src header.instructionCount.toInt.toNat with
      | .error e => return .error (.code e)
      | .ok program => return .ok { name, header, program, arena }

/-- **Loading stays in range.** -/
theorem load_eq_ok (name : String) (image : ByteArray) :
    load name image = .ok (Module.load name image) := by
  rw [load, parse_eq_ok, ok_bind, Module.load]
  by_cases hfits : Header.Fits image
  · have ha := hfits.acceptable
    have hsize := hfits.size_le
    have hcount := (Header.decode image).instructionCount.toInt_lt
    rw [Header.parse_of_fits hfits]
    dsimp only
    rw [buildArena_eq_ok ha hsize, ok_bind]
    cases (Header.decode image).buildArena image with
    | error e => rfl
    | ok arena =>
      have hsrc : ((Header.decode image).codeBytes image).size ≤ image.size := by
        rw [Header.codeBytes, Header.sectionBytes, ByteArray.size_extract]
        omega
      dsimp only
      rw [codeBytes_eq_ok ha hsize, ok_bind, prepare_eq_ok (by omega) (by omega), ok_bind]
      cases Program.prepare ((Header.decode image).codeBytes image)
        (Header.decode image).instructionCount.toInt.toNat <;> rfl
  · obtain ⟨e, he, -⟩ := Header.exists_parse_error hfits
    rw [he]
    rfl

end Checked

namespace Module

/-- Instructions that stand in the code section are no more than its bytes. -/
theorem length_le_codeLength {image : ByteArray} {I : List Instruction} {rest : List UInt8}
    (hfits : Header.Fits image)
    (h : (Header.decode image).codeSection image = I.flatMap Instruction.bytes ++ rest) :
    (I.length : Int) ≤ (Header.decode image).codeLength.toInt := by
  have hbytes := Instruction.length_le_length_flatMap_bytes I
  have hlen := congrArg List.length h
  have hpos := hfits.acceptable.codeLength
  rw [Header.codeSection, List.length_take, List.length_append] at hlen
  omega

/-- A program with more instructions than its section has bytes is not complete. -/
theorem Rejected.kind_of_codeLength_lt {image : ByteArray} {k : Kind} (h : Rejected image k)
    (hfits : Header.Fits image)
    (hlt : (Header.decode image).codeLength.toInt < (Header.decode image).instructionCount.toInt) :
    k = .pcOutOfRange ∨ k = .badInstruction := by
  cases h with
  | header hbad => exact absurd hfits hbad
  | code _ _ _ _ hbad =>
    cases hbad with
    | past => exact .inl rfl
    | opcode => exact .inr rfl
    | cut => exact .inl rfl
  | target _ hlen _ hfront _ =>
    obtain ⟨rest, hrest⟩ := hfront
    have := length_le_codeLength hfits hrest.symm
    omega

/-- **The loader accepts exactly its format.** It stays in range and never overflows, it accepts
the images that are modules, and every other image fails with the first thing that is wrong. An
instruction count above the length of the code section is never accepted. -/
theorem load_iff_format (name : String) (image : ByteArray) :
    Checked.load name image = .ok (load name image) ∧
      ((∃ m, load name image = .ok m) ↔ Format image) ∧
      (∀ k, (∃ e, load name image = .error e ∧ e.kind = k) ↔ Rejected image k) ∧
      ((Header.decode image).codeLength.toInt < (Header.decode image).instructionCount.toInt →
        ∃ e, load name image = .error e ∧
          (Header.Fits image → e.kind = .pcOutOfRange ∨ e.kind = .badInstruction)) := by
  refine ⟨Checked.load_eq_ok name image, exists_load_iff, fun k => exists_load_error_iff,
    fun hlt => ?_⟩
  cases hload : load name image with
  | ok m =>
    obtain ⟨hfits, I, hlen, -, ⟨rest, hrest⟩, -⟩ := exists_load_iff.mp ⟨m, hload⟩
    have := length_le_codeLength hfits hrest.symm
    omega
  | error e =>
    refine ⟨e, rfl, fun hfits => ?_⟩
    exact (exists_load_error_iff.mp ⟨e, hload, rfl⟩).kind_of_codeLength_lt hfits hlt

end Module

end BytecodeHost
