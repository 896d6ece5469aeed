import Mathlib.Data.List.TakeWhile
import Mathlib.Data.Nat.Digits.Lemmas
import BytecodeHost.Encoding.Base58
import BytecodeHost.Proofs.Bytes

/-!
# Reading what was written as base58

A byte string is two things: a number of zero bytes and a number. The zeros are written as ones, and
the number with digits of which the first is not zero, so that a reader sees where the ones end.
Both radix conversions write the digits of that number, `Nat.digits`, because the fuel that they are
given is enough: two digits have room for a byte, and a byte has room for a digit.

No other texts are read. A one in front of the digits is never a leading zero of the number, which a
reader could pass over: it is a byte.

## Main definitions

* `Base58.leadingZeros`, `Base58.numeral` — the zeros of a byte string, and the digits of its text

## Main results

* `Base58.digitsIn_eq` — both conversions write the digits of the number
* `Base58.zeros_append_digits` — leading zeros and a number are all there is to a byte string
* `Base58.numberOfDigits_map_digit` — digits are read back
* `Base58.decode_encode` — so are byte strings
* `Base58.encode_of_decode` — what is read was written
-/

namespace BytecodeHost

namespace Base58

/-! ## Numbers and digits -/

/-- The digits that are written are the digits of the number. -/
theorem digitsIn_eq {base : Nat} (hbase : 1 < base) {fuel n : Nat} (h : n < base ^ fuel)
    (rest : List Nat) : digitsIn base fuel n rest = (Nat.digits base n).reverse ++ rest := by
  induction fuel generalizing n rest with
  | zero =>
    obtain rfl : n = 0 := by simpa using h
    simp [digitsIn]
  | succ fuel ih =>
    rw [digitsIn]
    split
    · rename_i hzero
      simp [hzero]
    · rename_i hn
      have hrest : n / base < base ^ fuel := by
        rw [Nat.pow_succ'] at h
        exact Nat.div_lt_of_lt_mul h
      rw [ih hrest, Nat.digits_def' hbase (Nat.pos_of_ne_zero hn), List.reverse_cons,
        List.append_assoc, List.singleton_append]

/-- A number read digit by digit, most significant first. -/
theorem foldl_eq_ofDigits (base : Nat) (ds : List Nat) :
    ds.foldl (fun n d => base * n + d) 0 = Nat.ofDigits base ds.reverse := by
  rw [Nat.ofDigits_eq_foldr, List.foldr_reverse]
  simp only [Nat.add_comm, Nat.cast_id]

/-- The digits of a number do not start with a zero. -/
theorem head?_reverse_digits_ne (base n : Nat) :
    (Nat.digits base n).reverse.head? ≠ some 0 := by
  rw [List.head?_reverse]
  by_cases hn : n = 0
  · simp [hn]
  · rw [List.getLast?_eq_some_getLast (Nat.digits_ne_nil_iff_ne_zero.mpr hn)]
    exact fun h => Nat.getLast_digit_ne_zero base hn (Option.some.inj h)

/-- What comes first, again and again, is as often as it comes. -/
theorem takeWhile_eq_replicate {α : Type} [BEq α] [LawfulBEq α] (a : α) (l : List α) :
    l.takeWhile (· == a) = List.replicate (l.takeWhile (· == a)).length a :=
  List.eq_replicate_iff.mpr ⟨rfl, fun x hx => by simpa using List.mem_takeWhile_imp hx⟩

/-- What is put first is what comes first, and no more. -/
theorem length_takeWhile_replicate_append {α : Type} [BEq α] [LawfulBEq α] {a : α} (z : Nat)
    {rest : List α} (h : rest.head? ≠ some a) :
    ((List.replicate z a ++ rest).takeWhile (· == a)).length = z := by
  have hrest : rest.takeWhile (· == a) = [] := by
    cases rest with
    | nil => rfl
    | cons x rest =>
      have hx : x ≠ a := fun hx => h (congrArg some hx)
      exact List.takeWhile_cons_of_neg (by simpa using hx)
  rw [List.takeWhile_append_of_pos fun x hx => by simp [List.eq_of_mem_replicate hx], hrest,
    List.append_nil, List.length_replicate]

/-- Digits without leading zeros are those of the number that they stand for. -/
theorem reverse_digits_ofDigits {base : Nat} (hbase : 1 < base) {ds : List Nat}
    (h : ∀ d ∈ ds, d < base) :
    (Nat.digits base (Nat.ofDigits base ds.reverse)).reverse = ds.dropWhile (· == 0) := by
  have hvalue : Nat.ofDigits base ds.reverse
      = Nat.ofDigits base (ds.dropWhile (· == 0)).reverse := by
    conv_lhs =>
      rw [← List.takeWhile_append_dropWhile (p := (· == 0)) (l := ds), takeWhile_eq_replicate 0 ds]
    rw [List.reverse_append, List.reverse_replicate, Nat.ofDigits_append_replicate_zero]
  have hmem : ∀ d ∈ (ds.dropWhile (· == 0)).reverse, d < base := fun d hd =>
    h d ((List.dropWhile_sublist _).mem (List.mem_reverse.mp hd))
  rw [hvalue, Nat.digits_ofDigits base hbase _ hmem, List.reverse_reverse]
  intro hne hlast
  rw [List.getLast_reverse] at hlast
  have hhead := List.head?_dropWhile_not (· == 0) ds
  rw [List.head?_eq_some_head (by simpa using hne), hlast] at hhead
  contradiction

theorem numberOf_eq (bytes : List UInt8) :
    numberOf bytes = Nat.ofDigits 256 (bytes.map UInt8.toNat).reverse := by
  rw [← foldl_eq_ofDigits, List.foldl_map]
  rfl

theorem lt_of_mem_reverse_map_toNat {bytes : List UInt8} {d : Nat}
    (hd : d ∈ (bytes.map UInt8.toNat).reverse) : d < 256 := by
  obtain ⟨x, -, rfl⟩ := List.mem_map.mp (List.mem_reverse.mp hd)
  exact x.toNat_lt

theorem numberOf_lt (bytes : List UInt8) : numberOf bytes < 256 ^ bytes.length := by
  have hlt := Nat.ofDigits_lt_base_pow_length (by decide : 1 < 256)
    fun d (hd : d ∈ (bytes.map UInt8.toNat).reverse) => lt_of_mem_reverse_map_toNat hd
  rwa [List.length_reverse, List.length_map, ← numberOf_eq] at hlt

/-- **A number gives back the bytes behind the leading zeros.** -/
theorem digits_numberOf (bytes : List UInt8) :
    (Nat.digits 256 (numberOf bytes)).reverse.map Nat.toUInt8 = bytes.dropWhile (· == 0) := by
  have hzero : ((· == 0) ∘ UInt8.toNat) = fun x : UInt8 => x == 0 := by
    funext x
    rw [Function.comp_apply, Bool.eq_iff_iff, beq_iff_eq, beq_iff_eq]
    exact UInt8.toNat_inj (b := 0)
  rw [numberOf_eq, reverse_digits_ofDigits (by decide)
    fun d hd => lt_of_mem_reverse_map_toNat (List.mem_reverse.mpr hd), List.dropWhile_map,
    List.map_map, hzero]
  simp [Function.comp_def]

/-- How many zero bytes come first. -/
def leadingZeros (bytes : List UInt8) : Nat :=
  (bytes.takeWhile (· == 0)).length

/-- Leading zeros and a number are all there is to a byte string. -/
theorem zeros_append_digits (bytes : List UInt8) :
    List.replicate (leadingZeros bytes) 0
      ++ (Nat.digits 256 (numberOf bytes)).reverse.map Nat.toUInt8 = bytes := by
  rw [leadingZeros, ← takeWhile_eq_replicate, digits_numberOf, List.takeWhile_append_dropWhile]

/-! ## Numerals

The digits of a text are a zero for each zero byte, and behind them the digits of the number. -/

/-- The digits that a byte string is written with. -/
def numeral (bytes : List UInt8) : List Nat :=
  List.replicate (leadingZeros bytes) 0 ++ (Nat.digits 58 (numberOf bytes)).reverse

theorem lt_of_mem_numeral {bytes : List UInt8} {d : Nat} (hd : d ∈ numeral bytes) : d < 58 := by
  rcases List.mem_append.mp hd with hd | hd
  · rw [List.eq_of_mem_replicate hd]
    decide
  · exact Nat.digits_lt_base (by decide) (List.mem_reverse.mp hd)

/-- A numeral stands for the number of the bytes. -/
theorem foldl_numeral (bytes : List UInt8) :
    (numeral bytes).foldl (fun n d => 58 * n + d) 0 = numberOf bytes := by
  rw [foldl_eq_ofDigits, numeral, List.reverse_append, List.reverse_reverse, List.reverse_replicate,
    Nat.ofDigits_append_replicate_zero, Nat.ofDigits_digits]

/-- A digit has no more room than a byte. -/
theorem length_digits_le (n : Nat) : (Nat.digits 256 n).length ≤ (Nat.digits 58 n).length := by
  have hlt : n < 58 ^ (Nat.digits 58 n).length := Nat.lt_base_pow_length_digits (by decide)
  exact (Nat.digits_length_le_iff (by decide) n).mpr
    (Nat.lt_of_lt_of_le hlt (Nat.pow_le_pow_left (by decide) _))

/-- A numeral is at least as long as the bytes. -/
theorem length_le_length_numeral (bytes : List UInt8) : bytes.length ≤ (numeral bytes).length := by
  have hlength := congrArg List.length (zeros_append_digits bytes)
  have hdigits := length_digits_le (numberOf bytes)
  simp only [numeral, List.length_append, List.length_replicate, List.length_map,
    List.length_reverse] at hlength ⊢
  omega

/-- Two digits have room for a byte. -/
theorem numberOf_lt_pow (bytes : List UInt8) : numberOf bytes < 58 ^ (2 * bytes.length) :=
  calc numberOf bytes < 256 ^ bytes.length := numberOf_lt bytes
    _ ≤ (58 ^ 2) ^ bytes.length := Nat.pow_le_pow_left (by decide) _
    _ = 58 ^ (2 * bytes.length) := (Nat.pow_mul _ _ _).symm

/-! ## Texts -/

theorem value?_digit : ∀ d < 58, value? (digit d) = some d := by
  decide

theorem toNat_digit_le : ∀ d < 58, (digit d).toNat ≤ 127 := by
  decide

theorem digit_eq_one_iff : ∀ d < 58, digit d = '1' ↔ d = 0 := by
  decide

/-- **Digits are read back.** -/
theorem numberOfDigits_map_digit {ds : List Nat} (h : ∀ d ∈ ds, d < 58) (n : Nat) :
    numberOfDigits n (ds.map digit) = .ok (ds.foldl (fun n d => 58 * n + d) n) := by
  induction ds generalizing n with
  | nil => rfl
  | cons d ds ih =>
    have hd := h d List.mem_cons_self
    rw [List.map_cons, numberOfDigits, if_neg (Nat.not_lt.mpr (toNat_digit_le d hd)),
      value?_digit d hd]
    exact ih (fun d hd => h d (List.mem_cons_of_mem _ hd)) (58 * n + d)

/-- The characters of a text. -/
theorem toList_encode (b : ByteArray) :
    (encode b).toList = (numeral (Bytes.toBytes b)).map digit := by
  have hdigits := digitsIn_eq (by decide) (numberOf_lt_pow (Bytes.toBytes b)) []
  rw [List.append_nil] at hdigits
  rw [encode, String.toList_ofList, numeral, List.map_append, ← hdigits, List.map_replicate,
    List.map_const']
  rfl

/-- Ones are the digits of value zero. -/
theorem length_takeWhile_map_digit {ds : List Nat} (h : ∀ d ∈ ds, d < 58) :
    ((ds.map digit).takeWhile (· == '1')).length = (ds.takeWhile (· == 0)).length := by
  induction ds with
  | nil => rfl
  | cons d ds ih =>
    have hone := digit_eq_one_iff d (h d List.mem_cons_self)
    rw [List.map_cons]
    by_cases hd : d = 0
    · rw [List.takeWhile_cons_of_pos (by simpa using hone.mpr hd),
        List.takeWhile_cons_of_pos (by simpa using hd), List.length_cons, List.length_cons,
        ih fun d hd => h d (List.mem_cons_of_mem _ hd)]
    · rw [List.takeWhile_cons_of_neg (by simpa using mt hone.mp hd),
        List.takeWhile_cons_of_neg (by simpa using hd)]
      rfl

/-- A text starts with as many ones as the byte string with zeros. -/
theorem length_takeWhile_numeral (bytes : List UInt8) :
    (((numeral bytes).map digit).takeWhile (· == '1')).length = leadingZeros bytes := by
  rw [length_takeWhile_map_digit fun d => lt_of_mem_numeral, numeral,
    length_takeWhile_replicate_append _ (head?_reverse_digits_ne 58 (numberOf bytes))]

/-- **Base58 gives back what was written**, unless that is nothing. -/
theorem decode_encode {b : ByteArray} (h : b.size ≠ 0) : decode (encode b) = .ok b := by
  have hlength : b.size ≤ (numeral (Bytes.toBytes b)).length := length_le_length_numeral _
  have hnonempty : (numeral (Bytes.toBytes b)).map digit ≠ [] := by
    intro hnil
    rw [List.map_eq_nil_iff.mp hnil, List.length_nil] at hlength
    exact h (Nat.le_zero.mp hlength)
  have hdigits : ∀ d ∈ numeral (Bytes.toBytes b), d < 58 := fun _ => lt_of_mem_numeral
  have hvalue := numberOfDigits_map_digit hdigits 0
  rw [foldl_numeral] at hvalue
  have hfuel : numberOf (Bytes.toBytes b)
      < 256 ^ ((numeral (Bytes.toBytes b)).map digit).length := by
    rw [List.length_map]
    exact Nat.lt_of_lt_of_le (numberOf_lt _) (Nat.pow_le_pow_right (by decide) hlength)
  rw [decode, toList_encode, if_neg (by simpa using hnonempty), hvalue]
  dsimp only
  rw [digitsIn_eq (by decide) hfuel, List.append_nil, List.map_const', length_takeWhile_numeral,
    zeros_append_digits]
  rfl

/-! ## No other texts

A text is read as a number of ones and a number, and both are written again as they were: the digits
behind the ones start with none of value zero, as do the digits of the number. -/

theorem value?_eq_some {c : Char} {v : Nat} (h : value? c = some v) : v < 58 ∧ digit v = c := by
  obtain ⟨hv, heq, -⟩ := List.findIdx?_eq_some_iff_getElem.mp h
  refine ⟨hv, ?_⟩
  rw [digit, List.getD_eq_getElem?_getD, List.getElem?_eq_getElem hv]
  exact beq_iff_eq.mp heq

/-- **A number is only read from digits.** -/
theorem exists_digits_of_numberOfDigits {n m : Nat} {cs : List Char}
    (h : numberOfDigits n cs = .ok m) :
    ∃ ds : List Nat, (∀ d ∈ ds, d < 58) ∧ cs = ds.map digit ∧
      m = ds.foldl (fun n d => 58 * n + d) n := by
  induction cs generalizing n with
  | nil => exact ⟨[], fun d hd => absurd hd List.not_mem_nil, rfl, (Except.ok.inj h).symm⟩
  | cons c cs ih =>
    rw [numberOfDigits] at h
    split at h
    · contradiction
    · split at h
      · contradiction
      · rename_i v hv
        obtain ⟨hlt, hdigit⟩ := value?_eq_some hv
        obtain ⟨ds, hds, rfl, hm⟩ := ih h
        exact ⟨v :: ds, List.forall_mem_cons.mpr ⟨hlt, hds⟩, by rw [List.map_cons, hdigit], hm⟩

/-- The bytes of a number of zeros and a number stand for that number. -/
theorem numberOf_zeros_append_digits (z n : Nat) :
    numberOf (List.replicate z 0 ++ (Nat.digits 256 n).reverse.map Nat.toUInt8) = n := by
  have hbytes : ((Nat.digits 256 n).reverse.map Nat.toUInt8).map UInt8.toNat
      = (Nat.digits 256 n).reverse := by
    rw [List.map_map]
    refine (List.map_congr_left fun d hd => ?_).trans (List.map_id _)
    have hlt : d < 256 := Nat.digits_lt_base (by decide) (List.mem_reverse.mp hd)
    exact UInt8.toNat_ofNat_of_lt' hlt
  rw [numberOf_eq, List.map_append, hbytes, List.map_replicate, List.reverse_append,
    List.reverse_reverse, List.reverse_replicate]
  exact (Nat.ofDigits_append_replicate_zero ..).trans (Nat.ofDigits_digits 256 n)

/-- The numeral of a number of zeros and a number. -/
theorem numeral_zeros_append_digits (z n : Nat) :
    numeral (List.replicate z 0 ++ (Nat.digits 256 n).reverse.map Nat.toUInt8)
      = List.replicate z 0 ++ (Nat.digits 58 n).reverse := by
  have hhead : ((Nat.digits 256 n).reverse.map Nat.toUInt8).head? ≠ some 0 := by
    intro hzero
    rw [List.head?_map] at hzero
    obtain ⟨d, hd, hd'⟩ := Option.map_eq_some_iff.mp hzero
    have hlt : d < 256 :=
      Nat.digits_lt_base (by decide) (List.mem_reverse.mp (List.mem_of_mem_head? hd))
    have hd' : d = 0 := by
      rw [← UInt8.toNat_ofNat_of_lt' hlt]
      exact congrArg UInt8.toNat hd'
    exact head?_reverse_digits_ne 256 n (hd' ▸ hd)
  rw [numeral, numberOf_zeros_append_digits, leadingZeros,
    length_takeWhile_replicate_append z hhead]

/-- **A text that is accepted is the one that is written.** -/
theorem encode_of_decode {s : String} {b : ByteArray} (h : decode s = .ok b) : encode b = s := by
  rw [decode] at h
  dsimp only at h
  split at h
  · contradiction
  · cases hnumber : numberOfDigits 0 s.toList with
    | error e =>
      rw [hnumber] at h
      contradiction
    | ok n =>
      obtain ⟨ds, hds, htext, hn⟩ := exists_digits_of_numberOfDigits hnumber
      rw [foldl_eq_ofDigits] at hn
      have hfuel : n < 256 ^ s.toList.length := by
        have hlt := Nat.ofDigits_lt_base_pow_length (by decide : 1 < 58)
          fun d (hd : d ∈ ds.reverse) => hds d (List.mem_reverse.mp hd)
        rw [← hn, List.length_reverse] at hlt
        rw [htext, List.length_map]
        exact Nat.lt_of_lt_of_le hlt (Nat.pow_le_pow_left (by decide) _)
      rw [hnumber] at h
      dsimp only at h
      rw [digitsIn_eq (by decide) hfuel, List.append_nil, List.map_const'] at h
      rw [← String.toList_inj, toList_encode, ← Except.ok.inj h, htext, Bytes.toBytes,
        numeral_zeros_append_digits, length_takeWhile_map_digit hds, hn,
        reverse_digits_ofDigits (by decide) hds, ← takeWhile_eq_replicate,
        List.takeWhile_append_dropWhile]

end Base58

end BytecodeHost
