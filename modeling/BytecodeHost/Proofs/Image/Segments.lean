import Mathlib.Order.Bounds.Defs
import BytecodeHost.Proofs.Image.Loading

/-!
# The segments of a module in its arena

The data, the literals and the bss segment lie at the bottom of the arena, in this order and without
gaps. Only the first two are in the image. So the arena is a stretch of the image with zeros behind
it, wherever the data words end and the literals begin.

The size is found by doubling a word until the segments fit. That is no loop which always ends: a
total above `2 ^ 31` is never reached, because the size becomes zero and stays so. The lengths of a
header that is accepted are bounded by the image and by the largest bss segment, and that bound is
what the loop rests on.

## Main definitions

* `Header.segments` — what the segments take together
* `Header.Doubles` — the doubling loop, with no bound on its turns

## Main results

* `Header.doubles_iff` — what doubling comes to, and when it ends
* `Header.arena_of_parse` — the arena that a module starts with
-/

namespace BytecodeHost

namespace Header

/-! ## Sizes -/

/-- How many bytes the three segments take together, added up as words. -/
def segments (h : Header) : UInt32 :=
  h.dataLength.toUInt32 + h.litLength.toUInt32 + h.bssLength.toUInt32

/-- Doubling a size, as a word, until it is not below a total. Where doubling never ends there is no
result. -/
inductive Doubles (total : UInt32) : UInt32 → UInt32 → Prop where
  | stop {size : UInt32} (h : ¬size < total) : Doubles total size size
  | double {size result : UInt32} (h : size < total) (hrest : Doubles total (size <<< 1) result) :
    Doubles total size result

variable {total size result : UInt32}

/-- Zero is doubled for ever. -/
theorem not_doubles_zero (h : 0 < total) : ¬Doubles total 0 result := by
  intro hdoubles
  generalize hzero : (0 : UInt32) = size at hdoubles
  induction hdoubles with
  | stop hstop =>
    subst hzero
    exact hstop h
  | double _ _ ih =>
    subst hzero
    exact ih rfl

/-- Doubling gets to the first power of two that is not below the total. -/
theorem doubles_two_pow {i k : Nat} (hik : i ≤ k) (hk : k ≤ 31) (hle : total.toNat ≤ 2 ^ k)
    (hbelow : ∀ j < k, 2 ^ j < total.toNat) :
    Doubles total (UInt32.ofNat (2 ^ i)) (UInt32.ofNat (2 ^ k)) := by
  induction hik using Nat.decreasingInduction with
  | self =>
    refine .stop ?_
    rw [UInt32.lt_iff_toNat_lt, toNat_ofNat_two_pow hk]
    exact Nat.not_lt.mpr hle
  | of_succ i hi ih =>
    refine .double ?_ ?_
    · rw [UInt32.lt_iff_toNat_lt, toNat_ofNat_two_pow (by omega)]
      exact hbelow i hi
    · rwa [ofNat_two_pow_shiftLeft (by omega)]

/-- Doubling a power of two gets nowhere else. -/
theorem exists_of_doubles (h : Doubles total size result) {i : Nat} (hi : i ≤ 31)
    (hsize : size = UInt32.ofNat (2 ^ i)) (hbelow : ∀ j < i, 2 ^ j < total.toNat) :
    ∃ k, result.toNat = 2 ^ k ∧ total.toNat ≤ 2 ^ k ∧ ∀ j < k, 2 ^ j < total.toNat := by
  induction h generalizing i with
  | stop hstop =>
    rw [hsize, UInt32.lt_iff_toNat_lt, toNat_ofNat_two_pow hi, Nat.not_lt] at hstop
    exact ⟨i, by rw [hsize, toNat_ofNat_two_pow hi], hstop, hbelow⟩
  | double hlt hrest ih =>
    rw [hsize, UInt32.lt_iff_toNat_lt, toNat_ofNat_two_pow hi] at hlt
    by_cases hlast : i = 31
    · -- the highest bit is shifted out
      have hzero : (UInt32.ofNat (2 ^ 31)) <<< 1 = 0 := by decide
      rw [hsize, hlast, hzero] at hrest
      refine absurd hrest (not_doubles_zero ?_)
      rw [UInt32.lt_iff_toNat_lt]
      exact Nat.zero_lt_of_lt hlt
    · refine ih (i := i + 1) (by omega) (by rw [hsize, ofNat_two_pow_shiftLeft (by omega)]) ?_
      intro j hj
      rcases Nat.lt_succ_iff_lt_or_eq.mp hj with hj | rfl
      · exact hbelow j hj
      · exact hlt

/-- The least power of two that is not below a number, by its exponent. -/
theorem isLeast_two_pow_iff {n p : Nat} :
    IsLeast {q | q.isPowerOfTwo ∧ n ≤ q} p ↔
      ∃ k, p = 2 ^ k ∧ n ≤ 2 ^ k ∧ ∀ j < k, 2 ^ j < n := by
  constructor
  · rintro ⟨⟨⟨k, rfl⟩, hle⟩, hleast⟩
    refine ⟨k, rfl, hle, fun j hj => ?_⟩
    by_contra hnot
    have hkj : 2 ^ k ≤ 2 ^ j := hleast ⟨⟨j, rfl⟩, Nat.le_of_not_lt hnot⟩
    exact absurd ((Nat.pow_le_pow_iff_right (by omega)).mp hkj) (Nat.not_le.mpr hj)
  · rintro ⟨k, rfl, hle, hbelow⟩
    refine ⟨⟨⟨k, rfl⟩, hle⟩, ?_⟩
    rintro _ ⟨⟨j, rfl⟩, hj⟩
    by_contra hnot
    have hjk : j < k := (Nat.pow_lt_pow_iff_right (by omega)).mp (Nat.lt_of_not_le hnot)
    exact absurd (hbelow j hjk) (Nat.not_lt.mpr hj)

/-- **Doubling comes to the least power of two that is not below the total.** If no word is that
power of two, it never ends. -/
theorem doubles_iff :
    Doubles total 1 result ↔ IsLeast {n | n.isPowerOfTwo ∧ total.toNat ≤ n} result.toNat := by
  rw [isLeast_two_pow_iff]
  constructor
  · intro h
    exact exists_of_doubles h (i := 0) (by omega) rfl fun j hj => absurd hj (Nat.not_lt_zero j)
  · rintro ⟨k, hresult, hle, hbelow⟩
    have hk : k ≤ 31 := by
      have hlt : 2 ^ k < 2 ^ 32 := hresult ▸ result.toNat_lt
      have := (Nat.pow_lt_pow_iff_right (by omega)).mp hlt
      omega
    obtain rfl : result = UInt32.ofNat (2 ^ k) := by
      rw [← UInt32.toNat_inj, hresult, toNat_ofNat_two_pow hk]
    exact doubles_two_pow (Nat.zero_le k) hk hle hbelow

/-- Thirty-two turns are enough wherever doubling ends. -/
theorem doubles_doubled (h : total.toNat ≤ 2 ^ 31) : Doubles total 1 (doubled total 32 1) := by
  obtain ⟨k, hk, heq, hle, hleast⟩ := doubled_eq (n := 32) (k := 0) (Nat.le_refl 31) h (by omega)
    (by omega)
  have hone : UInt32.ofNat (2 ^ 0) = 1 := rfl
  rw [hone] at heq
  rw [heq]
  refine doubles_two_pow (Nat.zero_le k) hk hle fun j hj => ?_
  rcases hleast with rfl | hlt
  · exact absurd hj (Nat.not_lt_zero j)
  · exact Nat.lt_of_le_of_lt (Nat.pow_le_pow_right (by omega) (by omega)) hlt

/-! ## Arenas -/

/-- A header that is accepted is the one in the image, and it fits. -/
theorem fits_of_parse {image : ByteArray} {h : Header} (hparse : parse image = .ok h) :
    Fits image ∧ h = decode image := by
  by_cases hfits : Fits image
  · exact ⟨hfits, Except.ok.inj (hparse.symm.trans (parse_of_fits hfits))⟩
  · obtain ⟨e, he, -⟩ := exists_parse_error hfits
    rw [he] at hparse
    contradiction

section

variable {h : Header} {image : ByteArray}

/-- The initialized data is a stretch of the image. -/
theorem size_dataBytes (ha : h.Acceptable image.size) (hsize : image.size ≤ 4 * 2 ^ 20) :
    ((h.dataBytes image).size : Int) = h.dataLength.toInt + h.litLength.toInt := by
  have hadd := Checked.toInt_dataLength_add_litLength ha hsize
  have hoffset := ha.dataOffset
  have hdata := ha.dataLength
  have hlit := ha.litLength
  have hle := ha.data_le
  rw [dataBytes, sectionBytes, ByteArray.size_extract, hadd]
  omega

theorem byteAt_dataBytes (ha : h.Acceptable image.size) (hsize : image.size ≤ 4 * 2 ^ 20) {i : Nat}
    (hi : i < (h.dataBytes image).size) :
    Bytes.byteAt (h.dataBytes image) i = Bytes.byteAt image (h.dataOffset.toInt.toNat + i) := by
  have hlength := size_dataBytes ha hsize
  have hadd := Checked.toInt_dataLength_add_litLength ha hsize
  exact Bytes.byteAt_extract (by omega)

/-- Doubling ends at the size of the arena. -/
theorem doubles_arenaSize (ha : h.Acceptable image.size) (hsize : image.size ≤ 4 * 2 ^ 20) :
    Doubles h.segments 1 h.arenaSize := by
  have hsegments : (h.segments.toNat : Int) = _ := toNat_segments ha hsize
  have hbss := ha.bssLength_le
  have hoffset := ha.dataOffset
  have hle := ha.data_le
  exact doubles_doubled (by omega)

/-- The initialized data at the bottom of an arena of zeros. -/
theorem byteAt_write_dataBytes (ha : h.Acceptable image.size) (hsize : image.size ≤ 4 * 2 ^ 20)
    {a : Arena} {n : Nat} (hzeros : a.bytes = Bytes.zeros n)
    (hroom : (h.dataBytes image).size ≤ a.bytes.size) (i : Nat) :
    Bytes.byteAt (a.write 0 (h.dataBytes image)).bytes i =
      if (i : Int) < h.dataLength.toInt + h.litLength.toInt then
        Bytes.byteAt image (h.dataOffset.toInt.toNat + i)
      else 0 := by
  have hlength := size_dataBytes ha hsize
  have hfits : 0 + (h.dataBytes image).size ≤ a.bytes.size := by omega
  rw [Arena.bytes_write hfits, Bytes.byteAt_overwrite hfits]
  by_cases hi : i < (h.dataBytes image).size
  · rw [if_pos ⟨Nat.zero_le i, by omega⟩, if_pos (by omega), Nat.sub_zero,
      byteAt_dataBytes ha hsize hi]
  · rw [if_neg (fun hin => hi (by omega)), if_neg (by omega), hzeros, Bytes.byteAt_zeros]

/-- **The arena that a module starts with.** Take an image whose header is accepted. Its segments
add up without overflow, doubling ends at the size of the arena, which is the least power of two
that holds the segments and has at most 16 MiB, and the arena can be made. At the bottom of the
arena are the bytes of the image from the data on, literals included; all other bytes are zero, also
those of the bss segment and the guard. It makes no difference that the data words are stored once
more, one by one, wherever the last whole word ends. -/
theorem arena_of_parse (hparse : parse image = .ok h) :
    (h.segments.toNat : Int) = h.dataLength.toInt + h.litLength.toInt + h.bssLength.toInt ∧
    Doubles h.segments 1 h.arenaSize ∧
    IsLeast {n | n.isPowerOfTwo ∧ h.segments.toNat ≤ n} h.arenaSize.toNat ∧
    h.arenaSize.toNat ≤ 2 ^ 24 ∧
    h.dataOffset.toInt + h.dataLength.toInt + h.litLength.toInt ≤ image.size ∧
    ∃ a, h.buildArena image = .ok a ∧ Checked.buildArena h image = .ok (.ok a) ∧
      a.bytes.size = h.arenaSize.toNat + 4 ∧
      ∀ i : Nat, Bytes.byteAt a.bytes i =
        if (i : Int) < h.dataLength.toInt + h.litLength.toInt then
          Bytes.byteAt image (h.dataOffset.toInt.toNat + i)
        else 0 := by
  obtain ⟨hfits, rfl⟩ := fits_of_parse hparse
  have ha := hfits.acceptable
  have hsize := hfits.size_le
  generalize decode image = h at ha ⊢
  have hdoubles := doubles_arenaSize ha hsize
  obtain ⟨j, hj, hpow, hroom⟩ := exists_arenaSize_eq ha hsize
  obtain ⟨a, hnew, hmask, hzeros⟩ := Arena.exists_new (j := j) (by omega)
  have harena : h.arenaSize.toNat = 2 ^ j := by rw [hpow, toNat_ofNat_two_pow (by omega)]
  have hbuild : h.buildArena image = .ok (a.write 0 (h.dataBytes image)) := by
    rw [buildArena, hpow, hnew]
  have hbytes : a.bytes.size = 2 ^ j + 4 := by rw [a.size_bytes, ← hmask]
  refine ⟨toNat_segments ha hsize, hdoubles, doubles_iff.mp hdoubles, ?_, ha.data_le, _, hbuild,
    by rw [Checked.buildArena_eq_ok ha hsize, hbuild], ?_, ?_⟩
  · rw [harena]
    exact Nat.pow_le_pow_right (by omega) hj
  · rw [Arena.size_bytes, Arena.mask_write, harena, ← hmask]
  · refine byteAt_write_dataBytes ha hsize hzeros ?_
    have hlength := size_dataBytes ha hsize
    have hbss := ha.bssLength
    omega

end

/-- A header whose segments are 11 bytes long, with data that ends within a word. -/
def unevenHeader : Header where
  magic := moduleMagic
  instructionCount := 1
  codeOffset := 32
  codeLength := 1
  dataOffset := 33
  dataLength := 5
  litLength := 2
  bssLength := 4

/-- The header with its code, five bytes of data, and two of literals. -/
def unevenImage : ByteArray :=
  unevenHeader.encode ++ ⟨#[1, 11, 12, 13, 14, 15, 21, 22]⟩

/-- The arena of the image has 16 bytes and a guard. The last byte of the data, the literals and the
first byte of the bss segment are next to each other. -/
theorem arena_of_parse_uneven :
    parse unevenImage = .ok unevenHeader ∧
    IsLeast {n | n.isPowerOfTwo ∧ 11 ≤ n} 16 ∧
    ∃ a, unevenHeader.buildArena unevenImage = .ok a ∧ a.bytes.size = 20 ∧
      [3, 4, 5, 6, 7, 19].map (Bytes.byteAt a.bytes) = [14, 15, 21, 22, 0, 0] := by
  have hparse : parse unevenImage = .ok unevenHeader := by decide +kernel
  obtain ⟨-, -, hleast, -, -, a, hbuild, -, hsize, hbytes⟩ := arena_of_parse hparse
  have hsegments : unevenHeader.segments.toNat = 11 := by decide +kernel
  have harena : unevenHeader.arenaSize.toNat = 16 := by decide +kernel
  rw [hsegments, harena] at hleast
  rw [harena] at hsize
  refine ⟨hparse, hleast, a, hbuild, hsize, ?_⟩
  simp only [List.map_cons, List.map_nil, hbytes]
  decide +kernel

end Header

end BytecodeHost
