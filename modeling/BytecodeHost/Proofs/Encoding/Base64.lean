import BytecodeHost.Encoding.Base64
import BytecodeHost.Proofs.Text

/-!
# Reading what was written as base64

A text is a sequence of groups of four digits, each for three bytes; the last group may be filled
up. Writer and reader are both followed along the list of bytes, three at a time. The reader is
described by what stands behind its offset, one step for each kind of byte that it meets there.

## Main definitions

* `Base64.groupOf` — three bytes as a number
* `Base64.text` — the bytes of the text of a byte string

## Main results

* `Base64.utf8_encode` — what is written
* `Base64.decodeFrom_text` — what is read, with anything read before
* `Base64.decode_encode` — base64 gives back what was written
-/

namespace BytecodeHost

namespace Base64

open Text (utf8)

/-! ## Groups -/

/-- Three bytes as a number. -/
def groupOf (x y z : UInt8) : Nat :=
  65536 * x.toNat + 256 * y.toNat + z.toNat

theorem groupOf_lt (x y z : UInt8) : groupOf x y z < 16777216 := by
  have := x.toNat_lt
  have := y.toNat_lt
  have := z.toNat_lt
  rw [groupOf]
  omega

/-- The byte of a digit. -/
def digitByte (v : Nat) : UInt8 :=
  (digit v).toNat.toUInt8

theorem value?_digitByte : ∀ v < 64, value? (digitByte v) = some v := by
  decide

theorem utf8EncodeChar_digit : ∀ v < 64, String.utf8EncodeChar (digit v) = [digitByte v] := by
  decide

/-- The byte that fills up a group. -/
def padding : UInt8 := 61

/-- The bytes of the text of a byte string. -/
def text : List UInt8 → List UInt8
  | [] => []
  | [x] =>
    let g := groupOf x 0 0
    [digitByte (g / 262144), digitByte (g / 4096 % 64), padding, padding]
  | [x, y] =>
    let g := groupOf x y 0
    [digitByte (g / 262144), digitByte (g / 4096 % 64), digitByte (g / 64 % 64), padding]
  | x :: y :: z :: rest =>
    let g := groupOf x y z
    digitByte (g / 262144) :: digitByte (g / 4096 % 64) :: digitByte (g / 64 % 64)
      :: digitByte (g % 64) :: text rest

/-! ## Writing -/

theorem utf8_push (s : String) (c : Char) :
    utf8 (s.push c) = utf8 s ++ String.utf8EncodeChar c := by
  rw [Text.utf8_eq, Text.utf8_eq, String.toList_push, List.flatMap_append, List.flatMap_singleton]

theorem utf8_push_digit (s : String) {v : Nat} (hv : v < 64) :
    utf8 (s.push (digit v)) = utf8 s ++ [digitByte v] := by
  rw [utf8_push, utf8EncodeChar_digit v hv]

theorem utf8_push_padding (s : String) : utf8 (s.push '=') = utf8 s ++ [padding] :=
  utf8_push s '='

/-- What is written from an offset on. -/
theorem utf8_encodeFrom {b : ByteArray} {fuel i : Nat} (hfuel : b.size ≤ i + fuel) (s : String) :
    utf8 (encodeFrom b fuel i s) = utf8 s ++ text ((Bytes.toBytes b).drop i) := by
  induction fuel generalizing i s with
  | zero => rw [Bytes.drop_eq_nil_of_le (by omega), encodeFrom, text, List.append_nil]
  | succ fuel ih =>
    rw [encodeFrom]
    split
    · rename_i hend
      rw [Bytes.drop_eq_nil_of_le hend, text, List.append_nil]
    · have hgroup := groupOf_lt (Bytes.byteAt b i) (Bytes.byteAt b (i + 1)) (Bytes.byteAt b (i + 2))
      dsimp only
      rw [← groupOf, ih (by omega), Bytes.drop_eq_cons_of_lt (i := i) (by omega)]
      rcases (by omega : b.size = i + 1 ∨ b.size = i + 2 ∨ i + 2 < b.size) with hone | htwo | hmore
      · rw [Bytes.drop_eq_nil_of_le (i := i + 1) (by omega),
          Bytes.drop_eq_nil_of_le (i := i + 3) (by omega), if_pos (by omega), if_pos (by omega),
          Bytes.byteAt_of_le (i := i + 1) (by omega), Bytes.byteAt_of_le (i := i + 2) (by omega)]
        rw [Bytes.byteAt_of_le (i := i + 1) (by omega), Bytes.byteAt_of_le (i := i + 2) (by omega)]
          at hgroup
        rw [utf8_push_padding, utf8_push_padding, utf8_push_digit _ (by omega),
          utf8_push_digit _ (by omega)]
        simp [text]
      · rw [Bytes.drop_eq_cons_of_lt (i := i + 1) (by omega),
          Bytes.drop_eq_nil_of_le (i := i + 1 + 1) (by omega),
          Bytes.drop_eq_nil_of_le (i := i + 3) (by omega), if_neg (by omega), if_pos (by omega),
          Bytes.byteAt_of_le (i := i + 2) (by omega)]
        rw [Bytes.byteAt_of_le (i := i + 2) (by omega)] at hgroup
        rw [utf8_push_padding, utf8_push_digit _ (by omega), utf8_push_digit _ (by omega),
          utf8_push_digit _ (by omega)]
        simp [text]
      · rw [Bytes.drop_eq_cons_of_lt (i := i + 1) (by omega),
          Bytes.drop_eq_cons_of_lt (i := i + 1 + 1) (by omega), if_neg (by omega),
          if_neg (by omega), utf8_push_digit _ (by omega), utf8_push_digit _ (by omega),
          utf8_push_digit _ (by omega), utf8_push_digit _ (by omega)]
        simp [text]

theorem utf8_encode (b : ByteArray) : utf8 (encode b) = text (Bytes.toBytes b) := by
  rw [encode, utf8_encodeFrom (by omega)]
  rfl

/-! ## Reading -/

section Reader

variable {t : ByteArray} {fuel i : Nat} {out : ByteArray} {rest : List UInt8}

theorem decodeFrom_digit {digits group v : Nat} (hv : v < 64) (hd : digits < 3)
    (h : (Bytes.toBytes t).drop i = digitByte v :: rest) :
    decodeFrom t (fuel + 1) i digits group out
      = decodeFrom t fuel (i + 1) (digits + 1) (64 * group + v) out := by
  obtain ⟨hi, hbyte, -⟩ := Bytes.at_of_drop_eq h
  rw [decodeFrom, if_neg (by omega)]
  simp only [hbyte, value?_digitByte v hv]
  rw [if_neg (by omega)]

theorem decodeFrom_lastDigit {group v : Nat} (hv : v < 64)
    (h : (Bytes.toBytes t).drop i = digitByte v :: rest) :
    decodeFrom t (fuel + 1) i 3 group out
      = decodeFrom t fuel (i + 1) 0 0 (pushGroup out 4 (64 * group + v)) := by
  obtain ⟨hi, hbyte, -⟩ := Bytes.at_of_drop_eq h
  rw [decodeFrom, if_neg (by omega)]
  simp only [hbyte, value?_digitByte v hv, if_true]

theorem skipLineEnds_of_byteAt (fuel : Nat) (h : isLineEnd (Bytes.byteAt t i) = false) :
    skipLineEnds t fuel i = i := by
  cases fuel with
  | zero => rfl
  | succ fuel => rw [skipLineEnds, h, if_neg (by simp)]

/-- Padding that completes a group is accepted at the end of the text. -/
theorem checkPadding_padding {digits : Nat} (hd : digits = 2 ∨ digits = 3)
    (h : (Bytes.toBytes t).drop i = List.replicate (3 - digits) padding) :
    checkPadding t digits i = .ok () := by
  have finish : ∀ {j : Nat}, (Bytes.toBytes t).drop j = [] →
      ¬ skipLineEnds t t.size j < t.size := by
    intro j hj
    have hsize : t.size ≤ j := by simpa using hj
    rw [skipLineEnds_of_byteAt _ (by rw [Bytes.byteAt_of_le hsize]; rfl)]
    omega
  rcases hd with rfl | rfl
  · obtain ⟨hi, hbyte, hrest⟩ := Bytes.at_of_drop_eq h
    have hskip : skipLineEnds t t.size i = i := skipLineEnds_of_byteAt _ (by rw [hbyte]; rfl)
    simp only [checkPadding, hskip, hbyte, if_neg (finish hrest), if_true]
    rw [if_neg (by omega), if_neg (by omega)]
    rfl
  · simp only [checkPadding, if_neg (finish h)]
    rfl

/-- Padding ends the text. -/
theorem decodeFrom_padding {digits group : Nat} (hd : digits = 2 ∨ digits = 3)
    (h : (Bytes.toBytes t).drop i = List.replicate (4 - digits) padding) :
    decodeFrom t (fuel + 1) i digits group out = .ok (pushGroup out digits group) := by
  have hcons : List.replicate (4 - digits) padding
      = padding :: List.replicate (3 - digits) padding := by
    rcases hd with rfl | rfl <;> rfl
  rw [hcons] at h
  obtain ⟨hi, hbyte, hrest⟩ := Bytes.at_of_drop_eq h
  rw [decodeFrom, if_neg (by omega)]
  have hvalue : value? padding = none := rfl
  have hline : isLineEnd padding = false := rfl
  simp only [hbyte, hvalue, hline, checkPadding_padding hd hrest]
  rfl

end Reader

/-- The bytes of a group: all of them but the last `4 - digits`. -/
theorem toBytes_pushGroup {digits group : Nat} (out : ByteArray) {x y z : UInt8}
    (hd : 2 ≤ digits ∧ digits ≤ 4) (h : group <<< (6 * (4 - digits)) = groupOf x y z) :
    Bytes.toBytes (pushGroup out digits group)
      = Bytes.toBytes out ++ [x, y, z].take (digits - 1) := by
  have hx := x.toNat_lt
  have hy := y.toNat_lt
  have hz := z.toNat_lt
  have high : (groupOf x y z / 65536).toUInt8 = x := by
    rw [groupOf, ← UInt8.toNat_inj, Nat.toUInt8, UInt8.toNat_ofNat']
    omega
  have middle : (groupOf x y z / 256).toUInt8 = y := by
    rw [groupOf, ← UInt8.toNat_inj, Nat.toUInt8, UInt8.toNat_ofNat']
    omega
  have low : (groupOf x y z).toUInt8 = z := by
    rw [groupOf, ← UInt8.toNat_inj, Nat.toUInt8, UInt8.toNat_ofNat']
    omega
  simp only [pushGroup, h, high, middle, low]
  rcases (by omega : digits = 2 ∨ digits = 3 ∨ digits = 4) with rfl | rfl | rfl <;> simp

/-- Reading the text of `bytes` from an offset on gives these bytes, behind those read before. -/
theorem decodeFrom_text {t : ByteArray} (bytes : List UInt8) {fuel i : Nat} (out : ByteArray)
    (hfuel : t.size < i + fuel) (h : (Bytes.toBytes t).drop i = text bytes) :
    ∃ r, decodeFrom t fuel i 0 0 out = .ok r ∧ Bytes.toBytes r = Bytes.toBytes out ++ bytes := by
  induction bytes using text.induct generalizing fuel i out with
  | case1 =>
    rw [text] at h
    have hsize : t.size ≤ i := by simpa using h
    refine ⟨out, ?_, by simp⟩
    cases fuel with
    | zero => rfl
    | succ fuel => rw [decodeFrom, if_pos hsize, if_pos rfl]
  | case2 x =>
    have hgroup := groupOf_lt x 0 0
    obtain ⟨hi, -, h₁⟩ := Bytes.at_of_drop_eq h
    obtain ⟨hi₁, -, h₂⟩ := Bytes.at_of_drop_eq h₁
    obtain ⟨fuel, rfl⟩ : ∃ f, fuel = f + 3 := ⟨fuel - 3, by omega⟩
    rw [decodeFrom_digit (by omega) (by omega) h, decodeFrom_digit (by omega) (by omega) h₁,
      decodeFrom_padding (.inl rfl) h₂]
    refine ⟨_, rfl, toBytes_pushGroup out (x := x) (y := 0) (z := 0) (by omega) ?_⟩
    rw [Nat.shiftLeft_eq, groupOf]
    have hzero : (0 : UInt8).toNat = 0 := rfl
    omega
  | case3 x y =>
    have hgroup := groupOf_lt x y 0
    obtain ⟨hi, -, h₁⟩ := Bytes.at_of_drop_eq h
    obtain ⟨hi₁, -, h₂⟩ := Bytes.at_of_drop_eq h₁
    obtain ⟨hi₂, -, h₃⟩ := Bytes.at_of_drop_eq h₂
    obtain ⟨fuel, rfl⟩ : ∃ f, fuel = f + 4 := ⟨fuel - 4, by omega⟩
    rw [decodeFrom_digit (by omega) (by omega) h, decodeFrom_digit (by omega) (by omega) h₁,
      decodeFrom_digit (by omega) (by omega) h₂, decodeFrom_padding (.inr rfl) h₃]
    refine ⟨_, rfl, toBytes_pushGroup out (x := x) (y := y) (z := 0) (by omega) ?_⟩
    rw [Nat.shiftLeft_eq, groupOf]
    have hzero : (0 : UInt8).toNat = 0 := rfl
    omega
  | case4 x y z rest ih =>
    have hgroup := groupOf_lt x y z
    obtain ⟨hi, -, h₁⟩ := Bytes.at_of_drop_eq h
    obtain ⟨hi₁, -, h₂⟩ := Bytes.at_of_drop_eq h₁
    obtain ⟨hi₂, -, h₃⟩ := Bytes.at_of_drop_eq h₂
    obtain ⟨hi₃, -, h₄⟩ := Bytes.at_of_drop_eq h₃
    obtain ⟨fuel, rfl⟩ : ∃ f, fuel = f + 4 := ⟨fuel - 4, by omega⟩
    rw [decodeFrom_digit (by omega) (by omega) h, decodeFrom_digit (by omega) (by omega) h₁,
      decodeFrom_digit (by omega) (by omega) h₂, decodeFrom_lastDigit (by omega) h₃]
    have hpush : ∀ {g : Nat}, g = groupOf x y z →
        Bytes.toBytes (pushGroup out 4 g) = Bytes.toBytes out ++ [x, y, z] := by
      rintro g rfl
      exact toBytes_pushGroup out (by omega) rfl
    obtain ⟨r, hdecode, hr⟩ := ih _ (by omega : t.size < i + 4 + fuel) h₄
    refine ⟨r, hdecode, ?_⟩
    rw [hr, hpush (by omega), List.append_assoc]
    rfl

/-- Base64 gives back what was written. -/
theorem decode_encode (b : ByteArray) : decode (encode b) = .ok b := by
  have hfuel : (encode b).toUTF8.size < 0 + ((encode b).toUTF8.size + 1) := by omega
  obtain ⟨r, hdecode, hr⟩ := decodeFrom_text (Bytes.toBytes b) .empty hfuel (utf8_encode b)
  rw [decode, hdecode, Bytes.toBytes_inj.mp (show Bytes.toBytes r = Bytes.toBytes b from hr)]

end Base64

end BytecodeHost
