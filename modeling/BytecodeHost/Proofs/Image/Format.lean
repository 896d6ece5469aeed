import BytecodeHost.Proofs.Arena
import BytecodeHost.Proofs.Program.Preparation

/-!
# The format of module images

Which images are modules, said without the loader: the header fits the image, the code section
starts with as many complete instructions as the header promises, and every branch among them has
a target. An image that is no module fails one of these in turn, and `Module.Rejected` says with
which kind.

The arena never is the reason for a refusal. Its segments are bounded by the image and by the
largest bss segment, so the doubling that finds its size ends at a power of two of at most `2 ^ 24`.

## Main definitions

* `Header.Acceptable`, `Header.Fits` — the conditions on a header
* `Header.codeSection` — the bytes that a header calls code
* `Module.Format`, `Module.Rejected` — modules, and what is wrong with other images

## Main results

* `Header.parse_of_fits`, `Header.exists_parse_error`
* `Header.exists_new_arenaSize` — the arena of an acceptable header can be made
* `Module.exists_load_iff`, `Module.exists_load_error_iff`
* `Module.linked_of_load`, `Module.load_of_code` — the program of a loaded module
* `Module.load_rename`, `Module.size_arena_le` — what the name of a module is for, and how large its
  arena can be
-/

namespace BytecodeHost

theorem eq_ok_of_toOption {ε α : Type} {x : Except ε α} {a : α}
    (h : x.toOption = some a) : x = .ok a := by
  cases x with
  | error e => contradiction
  | ok b => exact congrArg Except.ok (Option.some.inj h)

namespace Header

/-! ## Headers -/

/-- The signs and bounds that a header has to have in an image of a given size. -/
structure Acceptable (h : Header) (size : Nat) : Prop where
  /-- There are instructions. -/
  instructionCount : 0 < h.instructionCount.toInt
  /-- The code section starts somewhere. -/
  codeOffset : 0 ≤ h.codeOffset.toInt
  /-- The code section is not empty. -/
  codeLength : 0 < h.codeLength.toInt
  /-- The data section starts somewhere. -/
  dataOffset : 0 ≤ h.dataOffset.toInt
  /-- The data words have a length. -/
  dataLength : 0 ≤ h.dataLength.toInt
  /-- The literals have a length. -/
  litLength : 0 ≤ h.litLength.toInt
  /-- The bss segment has a length. -/
  bssLength : 0 ≤ h.bssLength.toInt
  /-- The bss segment is not too long. -/
  bssLength_le : h.bssLength.toInt ≤ 10485760
  /-- The code section lies in the image. -/
  code_le : h.codeOffset.toInt + h.codeLength.toInt ≤ size
  /-- The data section lies in the image. -/
  data_le : h.dataOffset.toInt + h.dataLength.toInt + h.litLength.toInt ≤ size

/-- The header of an image fits the image. -/
structure Fits (image : ByteArray) : Prop where
  /-- Something follows the header. -/
  size_gt : 32 < image.size
  /-- The image has at most 4 MiB. -/
  size_le : image.size ≤ 4 * 2 ^ 20
  /-- The image starts with the magic number. -/
  magic : (decode image).magic = 0x12721444
  /-- The fields are in order. -/
  acceptable : (decode image).Acceptable image.size

theorem toInt_maxBssLength : maxBssLength.toInt = 10485760 := by decide

/-- The checks are the conditions, one by one. -/
theorem check_eq_ok_iff {h : Header} {size : Nat} :
    h.check size = .ok () ↔ h.Acceptable size := by
  have hsigns := @Int32.lt_iff_toInt_lt
  have hbounds := @Int32.le_iff_toInt_le
  constructor
  · intro hcheck
    simp only [check, hsigns, hbounds, Int32.toInt_zero, toInt_maxBssLength] at hcheck
    repeat' split at hcheck
    all_goals cases hcheck
    constructor <;> omega
  · intro ha
    obtain ⟨h₁, h₂, h₃, h₄, h₅, h₆, h₇, h₈, h₉, h₁₀⟩ := ha
    simp only [check, hsigns, hbounds, Int32.toInt_zero, toInt_maxBssLength]
    rw [if_neg (by omega), if_neg (by omega), if_neg (by omega), if_neg (by omega),
      if_neg (by omega), if_neg (by omega)]

/-- A failed check is a fault of the module, not of its code. -/
theorem check_error_kind {h : Header} {size : Nat} {e : LoadError} (he : h.check size = .error e) :
    e.kind = .invalidModule := by
  rw [check] at he
  repeat' split at he
  all_goals first | contradiction | (obtain rfl := Except.error.inj he; rfl)

/-- A header that fits is the one that is read. -/
theorem parse_of_fits {image : ByteArray} (h : Fits image) : parse image = .ok (decode image) := by
  have hshort : ¬image.size ≤ byteSize := Nat.not_le.mpr h.size_gt
  have hlong : ¬maxImageSize < image.size := Nat.not_lt.mpr h.size_le
  have hmagic : (decode image).magic = moduleMagic := h.magic
  simp only [parse, if_neg hshort, if_neg hlong, hmagic, ne_eq, not_true_eq_false, if_false,
    check_eq_ok_iff.mpr h.acceptable]

/-- A header that does not fit is a fault of the module. -/
theorem exists_parse_error {image : ByteArray} (h : ¬Fits image) :
    ∃ e, parse image = .error e ∧ e.kind = .invalidModule := by
  by_cases hshort : image.size ≤ byteSize
  · exact ⟨.tooShort image.size, if_pos hshort, rfl⟩
  by_cases hlong : maxImageSize < image.size
  · refine ⟨.tooLong image.size, ?_, rfl⟩
    simp only [parse, if_neg hshort, if_pos hlong]
  by_cases hmagic : (decode image).magic = moduleMagic
  · cases hcheck : (decode image).check image.size with
    | ok =>
      refine absurd ⟨Nat.lt_of_not_le hshort, Nat.le_of_not_lt hlong, hmagic, ?_⟩ h
      exact check_eq_ok_iff.mp hcheck
    | error e =>
      refine ⟨e, ?_, check_error_kind hcheck⟩
      simp only [parse, if_neg hshort, if_neg hlong, hmagic, ne_eq, not_true_eq_false, if_false,
        hcheck]
  · refine ⟨.badMagic (decode image).magic, ?_, rfl⟩
    simp only [parse, if_neg hshort, if_neg hlong, ne_eq, hmagic, not_false_eq_true, if_true]

/-! ## Arenas -/

theorem toNat_ofNat_two_pow {k : Nat} (hk : k ≤ 31) : (UInt32.ofNat (2 ^ k)).toNat = 2 ^ k := by
  have : 2 ^ k < 2 ^ 32 := Nat.pow_lt_pow_right (by omega) (by omega)
  rw [UInt32.toNat_ofNat', Nat.mod_eq_of_lt this]

theorem ofNat_two_pow_shiftLeft {k : Nat} (hk : k < 31) :
    UInt32.ofNat (2 ^ k) <<< 1 = UInt32.ofNat (2 ^ (k + 1)) := by
  have hlt : 2 ^ (k + 1) < 2 ^ 32 := Nat.pow_lt_pow_right (by omega) (by omega)
  rw [← UInt32.toNat_inj, UInt32.toNat_shiftLeft, toNat_ofNat_two_pow (by omega),
    toNat_ofNat_two_pow (by omega), Nat.shiftLeft_eq]
  exact Nat.mod_eq_of_lt hlt

/-- Doubling a power of two ends at the least one that is large enough. -/
theorem doubled_eq {total : UInt32} {m : Nat} (hm : m ≤ 31) (htotal : total.toNat ≤ 2 ^ m) :
    ∀ {n k : Nat}, k ≤ m → m ≤ k + n →
      ∃ j ≤ m, doubled total n (UInt32.ofNat (2 ^ k)) = UInt32.ofNat (2 ^ j) ∧
        total.toNat ≤ 2 ^ j ∧ (j = k ∨ 2 ^ (j - 1) < total.toNat) := by
  intro n
  induction n with
  | zero =>
    intro k hk hmk
    obtain rfl : k = m := by omega
    exact ⟨k, Nat.le_refl _, rfl, htotal, .inl rfl⟩
  | succ n ih =>
    intro k hk hmk
    rw [doubled]
    split
    · rename_i hlt
      rw [UInt32.lt_iff_toNat_lt, toNat_ofNat_two_pow (by omega)] at hlt
      have hkm : k < m := (Nat.pow_lt_pow_iff_right (by omega)).mp (Nat.lt_of_lt_of_le hlt htotal)
      obtain ⟨j, hj, heq, hle, hleast⟩ := ih (k := k + 1) (by omega) (by omega)
      refine ⟨j, hj, by rw [ofNat_two_pow_shiftLeft (by omega), heq], hle, ?_⟩
      rcases hleast with rfl | hleast
      · exact .inr (by simpa using hlt)
      · exact .inr hleast
    · rename_i hge
      rw [UInt32.lt_iff_toNat_lt, toNat_ofNat_two_pow (by omega)] at hge
      exact ⟨k, hk, rfl, Nat.le_of_not_lt hge, .inl rfl⟩

end Header

/-- An arena of a size that is a power of two can be made. -/
theorem Arena.exists_new {j : Nat} (hj : j ≤ 31) :
    ∃ a, Arena.new (UInt32.ofNat (2 ^ j)) = .ok a ∧ a.mask.toNat + 1 = 2 ^ j ∧
      a.bytes = Bytes.zeros (2 ^ j + 4) := by
  have hpos : 0 < 2 ^ j := Nat.two_pow_pos j
  have hpow := Header.toNat_ofNat_two_pow hj
  have hsub : (UInt32.ofNat (2 ^ j) - 1).toNat = 2 ^ j - 1 := by
    rw [UInt32.toNat_sub_of_le _ _ (by rw [UInt32.le_iff_toNat_le, hpow]; exact hpos), hpow]
    rfl
  have hvalid : ¬(UInt32.ofNat (2 ^ j) = 0
      ∨ UInt32.ofNat (2 ^ j) &&& (UInt32.ofNat (2 ^ j) - 1) ≠ 0) := by
    rintro (hzero | hand)
    · have := congrArg UInt32.toNat hzero
      rw [hpow, UInt32.toNat_zero] at this
      omega
    · refine hand ?_
      rw [← UInt32.toNat_inj, UInt32.toNat_and, hpow, hsub, Nat.and_two_pow_sub_one_eq_mod,
        Nat.mod_self]
      rfl
  refine ⟨_, dif_neg hvalid, ?_, ?_⟩
  · simp only [hsub]
    omega
  · simp only [hsub]
    congr 1
    omega

namespace Header

/-- The three segments together, as a word. -/
theorem toNat_segments {h : Header} {size : Nat} (ha : h.Acceptable size)
    (hsize : size ≤ 4 * 2 ^ 20) :
    ((h.dataLength.toUInt32 + h.litLength.toUInt32 + h.bssLength.toUInt32).toNat : Int)
      = h.dataLength.toInt + h.litLength.toInt + h.bssLength.toInt := by
  obtain ⟨-, -, -, hoff, hdata, hlit, hbss, hbss', -, hle⟩ := ha
  have h₁ := Bytes.toNat_toUInt32 hdata
  have h₂ := Bytes.toNat_toUInt32 hlit
  have h₃ := Bytes.toNat_toUInt32 hbss
  rw [UInt32.toNat_add, UInt32.toNat_add]
  omega

/-- The arena of an acceptable header has at most 16 MiB, and it has room for the three segments. -/
theorem exists_arenaSize_eq {h : Header} {size : Nat} (ha : h.Acceptable size)
    (hsize : size ≤ 4 * 2 ^ 20) :
    ∃ j ≤ 24, h.arenaSize = UInt32.ofNat (2 ^ j) ∧
      h.dataLength.toInt + h.litLength.toInt + h.bssLength.toInt ≤ (2 ^ j : Nat) := by
  have hsegments := toNat_segments ha hsize
  obtain ⟨-, -, -, hoff, hdata, hlit, hbss, hbss', -, hle⟩ := ha
  obtain ⟨j, hj, heq, htotal, -⟩ :=
    doubled_eq (m := 24) (n := 32) (k := 0) (by omega)
      (show (h.dataLength.toUInt32 + h.litLength.toUInt32 + h.bssLength.toUInt32).toNat ≤ 2 ^ 24
        by omega) (by omega) (by omega)
  exact ⟨j, hj, heq, by omega⟩

/-- **The arena of an acceptable header can be made**, and it holds the three segments. -/
theorem exists_new_arenaSize {h : Header} {size : Nat} (ha : h.Acceptable size)
    (hsize : size ≤ 4 * 2 ^ 20) :
    ∃ a, Arena.new h.arenaSize = .ok a ∧
      h.dataLength.toInt + h.litLength.toInt + h.bssLength.toInt ≤ a.mask.toNat + 1 ∧
      a.bytes = Bytes.zeros (a.mask.toNat + 5) := by
  obtain ⟨j, hj, heq, htotal⟩ := exists_arenaSize_eq ha hsize
  obtain ⟨a, hnew, hmask, hbytes⟩ := Arena.exists_new (j := j) (by omega)
  refine ⟨a, by rw [heq, hnew], by omega, ?_⟩
  rw [hbytes, ← hmask]

end Header

/-! ## Images -/

namespace Header

/-- The bytes that a header calls code. -/
def codeSection (h : Header) (image : ByteArray) : List UInt8 :=
  ((Bytes.toBytes image).drop h.codeOffset.toInt.toNat).take h.codeLength.toInt.toNat

theorem toBytes_codeBytes (h : Header) (image : ByteArray) :
    Bytes.toBytes (h.codeBytes image) = h.codeSection image := by
  rw [codeBytes, sectionBytes, Bytes.toBytes_extract, codeSection, List.drop_take,
    Nat.add_sub_cancel_left]

end Header

namespace Module

/-- An image is a module. -/
structure Format (image : ByteArray) : Prop where
  /-- Its header fits. -/
  fits : Header.Fits image
  /-- Its code section starts with the instructions that the header promises, and their branches
  have targets. -/
  code : ∃ I : List Instruction,
    (I.length : Int) = (Header.decode image).instructionCount.toInt ∧ (∀ i ∈ I, i.Encodable) ∧
      I.flatMap Instruction.bytes <+: (Header.decode image).codeSection image ∧
      ∀ i ∈ I, i.HasTarget I.length

/-- What is wrong with an image that is no module. The header is judged first, then the
instructions one after the other, and the branches only when all instructions are there. -/
inductive Rejected (image : ByteArray) : Kind → Prop where
  /-- The header does not fit. -/
  | header (h : ¬Header.Fits image) : Rejected image .invalidModule
  /-- After some instructions there is none, though the header promises more. -/
  | code {I : List Instruction} {rest : List UInt8} {k : Kind} (h : Header.Fits image)
    (hlen : (I.length : Int) < (Header.decode image).instructionCount.toInt)
    (henc : ∀ i ∈ I, i.Encodable)
    (hsplit : (Header.decode image).codeSection image = I.flatMap Instruction.bytes ++ rest)
    (hbad : Instruction.Undecodable rest k) : Rejected image k
  /-- All instructions are there, and one of them is a branch without a target. -/
  | target {I : List Instruction} (h : Header.Fits image)
    (hlen : (I.length : Int) = (Header.decode image).instructionCount.toInt)
    (henc : ∀ i ∈ I, i.Encodable)
    (hfront : I.flatMap Instruction.bytes <+: (Header.decode image).codeSection image)
    (hbad : ∃ i ∈ I, ¬i.HasTarget I.length) : Rejected image .invalidJump

/-- Once the header fits, loading succeeds or fails with preparing the program. -/
theorem load_of_fits (name : String) {image : ByteArray} (h : Header.Fits image) :
    ∃ arena, load name image =
      match Program.prepare ((Header.decode image).codeBytes image)
        (Header.decode image).instructionCount.toInt.toNat with
      | .error e => .error (.code e)
      | .ok program => .ok ⟨name, Header.decode image, program, arena⟩ := by
  obtain ⟨a, hnew, -, -⟩ := Header.exists_new_arenaSize h.acceptable h.size_le
  refine ⟨a.write 0 ((Header.decode image).dataBytes image), ?_⟩
  cases hp : Program.prepare ((Header.decode image).codeBytes image)
      (Header.decode image).instructionCount.toInt.toNat with
  | error e => simp only [load, Header.parse_of_fits h, Header.buildArena, hnew, hp]
  | ok p => simp only [load, Header.parse_of_fits h, Header.buildArena, hnew, hp]

theorem exists_load_error_of_not_fits (name : String) {image : ByteArray}
    (h : ¬Header.Fits image) : ∃ e, load name image = .error e ∧ e.kind = .invalidModule := by
  obtain ⟨e, he, hk⟩ := Header.exists_parse_error h
  exact ⟨e, by rw [load, he], hk⟩

/-- **Loading accepts modules.** -/
theorem exists_load_iff {name : String} {image : ByteArray} :
    (∃ m, load name image = .ok m) ↔ Format image := by
  by_cases h : Header.Fits image
  · have hcount := h.acceptable.instructionCount
    obtain ⟨arena, hload⟩ := load_of_fits name h
    constructor
    · rintro ⟨m, hm⟩
      rw [hload] at hm
      split at hm
      · contradiction
      · rename_i p hp
        obtain ⟨I, hI, htarget, -⟩ := Program.prepare_eq_ok_iff.mp hp
        obtain ⟨hsize, henc, hfront⟩ := Instruction.decodeAll_eq_ok_iff.mp hI
        rw [Header.toBytes_codeBytes] at hfront
        refine ⟨h, I.toList, by rw [Array.length_toList]; omega, by simpa using henc, hfront, ?_⟩
        rw [Array.length_toList, hsize]
        simpa using htarget
    · rintro ⟨-, I, hlen, henc, hfront, htarget⟩
      have hlen : I.length = (Header.decode image).instructionCount.toInt.toNat := by omega
      rw [← Header.toBytes_codeBytes] at hfront
      have hI : Instruction.decodeAll ((Header.decode image).codeBytes image)
          (Header.decode image).instructionCount.toInt.toNat = .ok I.toArray :=
        Instruction.decodeAll_eq_ok_iff.mpr ⟨by simpa using hlen, by simpa using henc, hfront⟩
      have hp := Program.prepare_eq_ok_iff.mpr ⟨_, hI, by simpa [← hlen] using htarget, rfl⟩
      rw [hload, hp]
      exact ⟨_, rfl⟩
  · obtain ⟨e, he, -⟩ := exists_load_error_of_not_fits name h
    simp only [he, reduceCtorEq, exists_false, false_iff]
    exact fun hformat => h hformat.fits

/-- **Loading fails with the first thing that is wrong.** -/
theorem exists_load_error_iff {name : String} {image : ByteArray} {k : Kind} :
    (∃ e, load name image = .error e ∧ e.kind = k) ↔ Rejected image k := by
  by_cases h : Header.Fits image
  · have hcount := h.acceptable.instructionCount
    obtain ⟨arena, hload⟩ := load_of_fits name h
    have hprepare : (∃ e, load name image = .error e ∧ e.kind = k) ↔
        ∃ e, Program.prepare ((Header.decode image).codeBytes image)
          (Header.decode image).instructionCount.toInt.toNat = .error e ∧ e.kind = k := by
      rw [hload]
      split <;> simp_all [LoadError.kind]
    rw [hprepare, Program.exists_prepare_error_iff, Instruction.exists_decodeAll_error_iff,
      Header.toBytes_codeBytes]
    constructor
    · rintro (⟨I, rest, hlen, henc, hsplit, hbad⟩ | ⟨rfl, I, hI, hbad⟩)
      · exact .code h (by omega) henc hsplit hbad
      · obtain ⟨hsize, henc, hfront⟩ := Instruction.decodeAll_eq_ok_iff.mp hI
        rw [Header.toBytes_codeBytes] at hfront
        refine .target h (I := I.toList) (by rw [Array.length_toList]; omega) (by simpa using henc)
          hfront ?_
        rw [Array.length_toList, hsize]
        simpa using hbad
    · rintro (hfits | ⟨-, hlen, henc, hsplit, hbad⟩ | @⟨I, -, hlen, henc, hfront, hbad⟩)
      · exact absurd h hfits
      · exact .inl ⟨_, _, by omega, henc, hsplit, hbad⟩
      · have hlen : I.length = (Header.decode image).instructionCount.toInt.toNat := by omega
        rw [← Header.toBytes_codeBytes] at hfront
        refine .inr ⟨rfl, I.toArray, ?_, by simpa [← hlen] using hbad⟩
        exact Instruction.decodeAll_eq_ok_iff.mpr
          ⟨by simpa using hlen, by simpa using henc, hfront⟩
  · obtain ⟨e, he, hk⟩ := exists_load_error_of_not_fits name h
    constructor
    · rintro ⟨e', he', rfl⟩
      rw [he] at he'
      obtain rfl := Except.error.inj he'
      exact hk ▸ .header h
    · rintro (- | hfits | hfits)
      · exact ⟨e, he, hk⟩
      · exact absurd hfits h
      · exact absurd hfits h

/-- **What loading leaves behind**: the instructions of the code section as a linked program, as
many as the header says. -/
theorem linked_of_load {name : String} {image : ByteArray} {m : Module}
    (h : load name image = .ok m) :
    ∃ I, Instruction.decodeAll (m.header.codeBytes image)
        m.header.instructionCount.toInt.toNat = .ok I ∧
      I.size = m.header.instructionCount.toInt.toNat ∧
      m.header.instructionCount.toUInt32.toNat = I.toList.length ∧ m.program.Linked I.toList := by
  obtain ⟨hfits, -⟩ := exists_load_iff.mp ⟨m, h⟩
  obtain ⟨arena, hload⟩ := load_of_fits name hfits
  rw [hload] at h
  split at h
  · contradiction
  · rename_i p hp
    obtain rfl := Except.ok.inj h
    obtain ⟨I, hdecode, hsize, hlinked⟩ :=
      Program.linked_of_prepare (Header.size_sectionBytes_lt _ _ _) hp
    refine ⟨I, hdecode, hsize, ?_, hlinked⟩
    have := Bytes.toNat_toUInt32 (Int.le_of_lt hfits.acceptable.instructionCount)
    rw [Array.length_toList, hsize]
    dsimp only
    omega

/-- A module whose code section starts with given instructions has them as its program. -/
theorem load_of_code (name : String) {image : ByteArray} {I : List Instruction}
    (hfits : Header.Fits image)
    (hlen : (I.length : Int) = (Header.decode image).instructionCount.toInt)
    (henc : ∀ i ∈ I, i.Encodable)
    (hfront : I.flatMap Instruction.bytes <+: (Header.decode image).codeSection image)
    (htarget : ∀ i ∈ I, i.HasTarget I.length) :
    ∃ m, load name image = .ok m ∧ m.header = Header.decode image ∧ m.program.Linked I := by
  have hcount : I.length = (Header.decode image).instructionCount.toInt.toNat := by omega
  rw [← Header.toBytes_codeBytes] at hfront
  have hI : Instruction.decodeAll ((Header.decode image).codeBytes image)
      (Header.decode image).instructionCount.toInt.toNat = .ok I.toArray :=
    Instruction.decodeAll_eq_ok_iff.mpr ⟨by simpa using hcount, by simpa using henc, hfront⟩
  have hp := Program.prepare_eq_ok_iff.mpr ⟨_, hI, by simpa [← hcount] using htarget, rfl⟩
  obtain ⟨I', hI', -, hlinked⟩ := Program.linked_of_prepare (Header.size_sectionBytes_lt _ _ _) hp
  obtain rfl : I.toArray = I' := Except.ok.inj (hI.symm.trans hI')
  obtain ⟨arena, hload⟩ := load_of_fits name hfits
  rw [hp] at hload
  exact ⟨_, hload, rfl, hlinked⟩

/-- The parts that a loaded module is made of. -/
theorem load_eq_ok_iff {name : String} {image : ByteArray} {m : Module} :
    load name image = .ok m ↔
      m.name = name ∧ Header.parse image = .ok m.header ∧
        m.header.buildArena image = .ok m.arena ∧
        Program.prepare (m.header.codeBytes image) m.header.instructionCount.toInt.toNat
          = .ok m.program := by
  constructor
  · intro h
    rw [load] at h
    split at h
    · contradiction
    · split at h
      · contradiction
      · split at h
        · contradiction
        · obtain rfl := Except.ok.inj h
          exact ⟨rfl, by assumption, by assumption, by assumption⟩
  · rintro ⟨rfl, hparse, harena, hprogram⟩
    rw [load, hparse]
    dsimp only
    rw [harena]
    dsimp only
    rw [hprogram]

/-- The name of a module is for messages only. -/
theorem load_rename {name : String} {image : ByteArray} {m : Module}
    (h : load name image = .ok m) (name' : String) :
    load name' image = .ok { m with name := name' } := by
  obtain ⟨-, hparts⟩ := load_eq_ok_iff.mp h
  exact load_eq_ok_iff.mpr ⟨rfl, hparts⟩

/-- The arena of a module has the size that its header asks for. -/
theorem size_arena {name : String} {image : ByteArray} {m : Module}
    (h : load name image = .ok m) :
    m.arena.size = (Header.decode image).arenaSize ∧ ∃ j ≤ 24, m.arena.mask.toNat + 1 = 2 ^ j := by
  obtain ⟨hfits, -⟩ := exists_load_iff.mp ⟨m, h⟩
  obtain ⟨-, hparse, harena, -⟩ := load_eq_ok_iff.mp h
  have hheader : m.header = Header.decode image :=
    Except.ok.inj (hparse.symm.trans (Header.parse_of_fits hfits))
  obtain ⟨j, hj, hsize, -⟩ := Header.exists_arenaSize_eq hfits.acceptable hfits.size_le
  obtain ⟨a, hnew, hmask, -⟩ := Arena.exists_new (j := j) (by omega)
  rw [hheader, Header.buildArena, hsize, hnew] at harena
  have hpow : 2 ^ j ≤ 2 ^ 24 := Nat.pow_le_pow_right (by omega) hj
  have hmask' : m.arena.mask.toNat + 1 = 2 ^ j := by
    rw [← Except.ok.inj harena, Arena.mask_write]
    omega
  refine ⟨?_, j, hj, hmask'⟩
  rw [hsize, ← UInt32.toNat_inj, Arena.toNat_size, hmask', UInt32.toNat_ofNat',
    Nat.mod_eq_of_lt (by omega)]

/-- The arena of a module, guard bytes included, has little more than 16 MiB at most. -/
theorem size_arena_le {name : String} {image : ByteArray} {m : Module}
    (h : load name image = .ok m) : m.arena.bytes.size ≤ 2 ^ 24 + 4 := by
  obtain ⟨-, j, hj, hmask⟩ := size_arena h
  have hpow : 2 ^ j ≤ 2 ^ 24 := Nat.pow_le_pow_right (by omega) hj
  rw [m.arena.size_bytes]
  omega

/-- The sample can be loaded. -/
theorem exists_load_sample : ∃ m, load "sample" sampleImage = .ok m := by
  have hok : (load "sample" sampleImage).toOption.isSome = true := by
    decide +kernel
  obtain ⟨m, hm⟩ := Option.isSome_iff_exists.mp hok
  exact ⟨m, eq_ok_of_toOption hm⟩

end Module

end BytecodeHost
