import BytecodeHost.Machine.Arithmetic
import Mathlib.Data.Int.Bitwise

/-!
# Word arithmetic as arithmetic of numbers

A word stands for a number in two's complement. The value of an integer instruction is said here in
terms of that number alone: a result outside the signed range is wrapped into it, an unsigned
instruction works on the numbers that have the same bits without a sign, and a shift takes its count
modulo the word size. Nothing of the machine's own arithmetic is used to say so.

## Main definitions

* `TwosComplement.signed`, `TwosComplement.unsigned`, `TwosComplement.wrap` — words and numbers
* `UnaryOp`, `BinaryOp` — the integer instructions, with their values

## Main results

* `UnaryOp.eval_signed`, `BinaryOp.value_signed`, `BinaryOp.value_signed_of_isDivision` — the
  machine computes these values
* `BinaryOp.eval_eq_none_iff` — the only operations without a value are divisions by zero
-/

namespace BytecodeHost

/-! ## Words and numbers -/

namespace TwosComplement

/-- The number that a word stands for. -/
def signed (w : UInt32) : Int :=
  w.toInt32.toInt

/-- The number with the same bits and no sign. -/
def unsigned (x : Int) : Nat :=
  (x % 2 ^ 32).toNat

/-- The number in the signed range that differs by a multiple of `2 ^ 32`. -/
def wrap (x : Int) : Int :=
  x.bmod (2 ^ 32)

theorem signed_eq_wrap (w : UInt32) : signed w = wrap w.toNat :=
  BitVec.toInt_eq_toNat_bmod w.toBitVec

theorem signed_of_lt {w : UInt32} (h : w.toNat < 2 ^ 31) : signed w = w.toNat := by
  rw [signed_eq_wrap, wrap, Int.bmod_eq_of_le (by omega) (by omega)]

theorem unsigned_signed (w : UInt32) : unsigned (signed w) = w.toNat := by
  have := w.toNat_lt
  have hmod : (w.toNat : Int).bmod (2 ^ 32) % 2 ^ 32 = w.toNat % 2 ^ 32 := Int.bmod_emod
  rw [unsigned, signed_eq_wrap, wrap, hmod]
  omega

theorem signed_toUInt32 (x : Int32) : signed x.toUInt32 = x.toInt :=
  rfl

theorem signed_eq_zero_iff {w : UInt32} : signed w = 0 ↔ w = 0 := by
  rw [signed, ← Int32.toInt_zero, Int32.toInt_inj]
  exact ⟨fun h => congrArg Int32.toUInt32 h, fun h => congrArg UInt32.toInt32 h⟩

/-- Wrapping only sees the low 32 bits. -/
theorem wrap_mod (n : Nat) : wrap (n % 2 ^ 32 : Nat) = wrap n := by
  rw [wrap, Int.natCast_mod]
  exact Int.emod_bmod n (2 ^ 32)

/-! ### Shifts -/

/-- A shift count is taken modulo the word size. -/
theorem toNat_and_31 (y : UInt32) : (y &&& 31).toNat = y.toNat % 32 := by
  rw [UInt32.toNat_and]
  exact Nat.and_two_pow_sub_one_eq_mod y.toNat 5

theorem toNat_shiftLeft (x y : UInt32) :
    (x <<< (y &&& 31)).toNat = x.toNat * 2 ^ (y.toNat % 32) % 2 ^ 32 := by
  rw [UInt32.toNat_shiftLeft, toNat_and_31, Nat.mod_mod, Nat.shiftLeft_eq]

theorem toNat_shiftRight (x y : UInt32) :
    (x >>> (y &&& 31)).toNat = x.toNat / 2 ^ (y.toNat % 32) := by
  rw [UInt32.toNat_shiftRight, toNat_and_31, Nat.mod_mod, Nat.shiftRight_eq_div_pow]

/-- A signed shift to the right rounds down. -/
theorem toInt_shiftRight (x y : UInt32) :
    (x.toInt32 >>> (y &&& 31).toInt32).toInt = x.toInt32.toInt / 2 ^ (y.toNat % 32) := by
  have hlt : (y &&& 31).toNat < 32 := by
    rw [toNat_and_31]
    omega
  have hmsb : (y &&& 31).toBitVec.msb = false := by
    rw [BitVec.msb_eq_false_iff_two_mul_lt]
    exact Nat.lt_of_lt_of_le (Nat.mul_lt_mul_of_pos_left hlt (by decide)) (by decide)
  have hmsb' : (32 : BitVec 32).msb = false := by decide
  -- the count is not negative, so taking it modulo the word size once more keeps it
  have hcount : ((y &&& 31).toInt32.toBitVec.smod 32).toNat = y.toNat % 32 := by
    rw [UInt32.toBitVec_toInt32, BitVec.toNat_smod, hmsb, hmsb']
    show (y &&& 31).toNat % 32 = y.toNat % 32
    rw [toNat_and_31, Nat.mod_mod]
  have hshift : (x.toInt32 >>> (y &&& 31).toInt32).toInt
      = x.toInt32.toInt >>> ((y &&& 31).toInt32.toBitVec.smod 32).toNat :=
    BitVec.toInt_sshiftRight'
  rw [hshift, hcount, Int.shiftRight_eq_div_pow]
  norm_cast

end TwosComplement

open TwosComplement

/-! ## Integer instructions -/

/-- The integer instructions with one operand. -/
inductive UnaryOp where
  | negi
  | bcom
  | signExtend8
  | signExtend16
  deriving DecidableEq

namespace UnaryOp

/-- The opcode. -/
def opcode : UnaryOp → Opcode
  | negi => .negi
  | bcom => .bcom
  | signExtend8 => .signExtend8
  | signExtend16 => .signExtend16

/-- The value. -/
def eval : UnaryOp → Int → Int
  | negi, x => wrap (-x)
  | bcom, x => -x - 1
  | signExtend8, x => x.bmod (2 ^ 8)
  | signExtend16, x => x.bmod (2 ^ 16)

/-- **The machine computes the value.** -/
theorem eval_signed (op : UnaryOp) (w : UInt32) :
    op.eval (signed w) = signed (op.opcode.unary w) := by
  cases op with
  | negi => exact (Int32.toInt_neg w.toInt32).symm
  | bcom =>
    have hnot : signed (~~~w) = (-signed w - 1).bmod (2 ^ 32) := Int32.toInt_not w.toInt32
    have hle := Int32.le_toInt w.toInt32
    have hlt := Int32.toInt_lt w.toInt32
    rw [signed] at hnot
    rw [Int.bmod_eq_of_le (by rw [signed]; omega) (by rw [signed]; omega)] at hnot
    exact hnot.symm
  | signExtend8 =>
    have hcut : w.toUInt8.toInt8 = w.toInt32.toInt8 := by
      rw [← Int8.toBitVec_inj]
      exact (BitVec.signExtend_eq_setWidth_of_le w.toBitVec (by decide)).symm
    have hextend : signed w.toUInt8.toInt8.toInt32.toUInt32 = w.toUInt8.toInt8.toInt :=
      Int8.toInt_toInt32 _
    rw [hcut, Int32.toInt_toInt8] at hextend
    exact (hcut ▸ hextend).symm
  | signExtend16 =>
    have hcut : w.toUInt16.toInt16 = w.toInt32.toInt16 := by
      rw [← Int16.toBitVec_inj]
      exact (BitVec.signExtend_eq_setWidth_of_le w.toBitVec (by decide)).symm
    have hextend : signed w.toUInt16.toInt16.toInt32.toUInt32 = w.toUInt16.toInt16.toInt :=
      Int16.toInt_toInt32 _
    rw [hcut, Int32.toInt_toInt16] at hextend
    exact (hcut ▸ hextend).symm

end UnaryOp

/-- The integer instructions with two operands. -/
inductive BinaryOp where
  | add
  | sub
  | muli
  | mulu
  | divi
  | divu
  | modi
  | modu
  | band
  | bor
  | bxor
  | lsh
  | rshi
  | rshu
  deriving DecidableEq

namespace BinaryOp

/-- The opcode. -/
def opcode : BinaryOp → Opcode
  | add => .add
  | sub => .sub
  | muli => .muli
  | mulu => .mulu
  | divi => .divi
  | divu => .divu
  | modi => .modi
  | modu => .modu
  | band => .band
  | bor => .bor
  | bxor => .bxor
  | lsh => .lsh
  | rshi => .rshi
  | rshu => .rshu

/-- Whether the value is a quotient or a remainder. -/
def isDivision : BinaryOp → Bool
  | divi | divu | modi | modu => true
  | _ => false

/-- The value of an operation other than a division. -/
def value (op : BinaryOp) (x y : Int) : Int :=
  match op with
  | add => wrap (x + y)
  | sub => wrap (x - y)
  | muli => wrap (x * y)
  | mulu => wrap (unsigned x * unsigned y : Nat)
  | divi => wrap (x.tdiv y)
  | divu => wrap (unsigned x / unsigned y : Nat)
  | modi => x.tmod y
  | modu => wrap (unsigned x % unsigned y : Nat)
  | band => wrap (unsigned x &&& unsigned y : Nat)
  | bor => wrap (unsigned x ||| unsigned y : Nat)
  | bxor => wrap (unsigned x ^^^ unsigned y : Nat)
  | lsh => wrap (x * 2 ^ (unsigned y % 32))
  | rshi => x / 2 ^ (unsigned y % 32)
  | rshu => wrap (unsigned x / 2 ^ (unsigned y % 32) : Nat)

/-- The value, if there is one. -/
def eval (op : BinaryOp) (x y : Int) : Option Int :=
  if op.isDivision ∧ y = 0 then none else some (op.value x y)

theorem eval_eq_none_iff {op : BinaryOp} {x y : Int} :
    op.eval x y = none ↔ op.isDivision = true ∧ y = 0 := by
  by_cases h : op.isDivision = true ∧ y = 0
  · rw [eval, if_pos h]
    exact ⟨fun _ => h, fun _ => rfl⟩
  · rw [eval, if_neg h]
    exact ⟨fun hnone => absurd hnone (Option.some_ne_none _), fun hzero => absurd hzero h⟩

/-- **The machine computes the value** of operations other than divisions. -/
theorem value_signed {op : BinaryOp} (hop : op.isDivision = false) (x y : UInt32) :
    op.value (signed x) (signed y) = signed (op.opcode.binary x y) := by
  have bitwise : ∀ {n : Nat} {w : UInt32}, w.toNat = n → wrap n = signed w := by
    rintro n w rfl
    exact (signed_eq_wrap w).symm
  cases op with
  | divi | divu | modi | modu => contradiction
  | add => exact (Int32.toInt_add x.toInt32 y.toInt32).symm
  | sub => exact (Int32.toInt_sub x.toInt32 y.toInt32).symm
  | muli => exact (Int32.toInt_mul x.toInt32 y.toInt32).symm
  | mulu =>
    rw [value, unsigned_signed, unsigned_signed, ← wrap_mod]
    exact bitwise (UInt32.toNat_mul x y)
  | band =>
    rw [value, unsigned_signed, unsigned_signed]
    exact bitwise (UInt32.toNat_and x y)
  | bor =>
    rw [value, unsigned_signed, unsigned_signed]
    exact bitwise (UInt32.toNat_or x y)
  | bxor =>
    rw [value, unsigned_signed, unsigned_signed]
    exact bitwise (UInt32.toNat_xor x y)
  | lsh =>
    have hmul : wrap (signed x * 2 ^ (y.toNat % 32))
        = wrap (x.toNat * 2 ^ (y.toNat % 32) : Nat) := by
      rw [signed_eq_wrap, wrap, wrap, Int.bmod_mul_bmod]
      norm_cast
    rw [value, unsigned_signed, hmul, ← wrap_mod]
    exact bitwise (toNat_shiftLeft x y)
  | rshi =>
    rw [value, unsigned_signed]
    exact (toInt_shiftRight x y).symm
  | rshu =>
    rw [value, unsigned_signed, unsigned_signed]
    exact bitwise (toNat_shiftRight x y)

/-- **The machine computes the value** of divisions. -/
theorem value_signed_of_isDivision {op : BinaryOp} (hop : op.isDivision = true) (x y : UInt32) :
    op.value (signed x) (signed y) = signed (op.opcode.divide x y) := by
  cases op with
  | divi => exact (Int32.toInt_div x.toInt32 y.toInt32).symm
  | divu =>
    rw [value, unsigned_signed, unsigned_signed, ← UInt32.toNat_div]
    exact (signed_eq_wrap _).symm
  | modi => exact (Int32.toInt_mod x.toInt32 y.toInt32).symm
  | modu =>
    rw [value, unsigned_signed, unsigned_signed, ← UInt32.toNat_mod]
    exact (signed_eq_wrap _).symm
  | _ => contradiction

end BinaryOp

end BytecodeHost
