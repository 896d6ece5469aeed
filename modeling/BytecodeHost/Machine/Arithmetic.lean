import BytecodeHost.Opcode

/-!
# Word arithmetic

The value-level meaning of the instructions. Words are 32-bit patterns; each operation says
whether it reads them as unsigned, as two's-complement or as binary32 numbers.

## Main definitions

* `Opcode.holds`: the condition of a branch.
* `Opcode.unary`, `Opcode.binary`: operations that always have a value.
* `Opcode.divide`: division and remainder by a divisor that is not zero.
* `Binary32.ofInt`, `Binary32.toInt`: conversions between integers and binary32 patterns.
-/

namespace BytecodeHost

/-! ## Binary32 patterns -/

namespace Binary32

/-- `m / 2 ^ k` rounded to the nearest integer, a half to the even neighbour. -/
def roundShift (m k : Nat) : Nat :=
  let q := m >>> k
  let twice := 2 * (m - q <<< k)
  if 1 <<< k < twice ∨ (twice = 1 <<< k ∧ q % 2 = 1) then q + 1 else q

/-- The pattern of a natural number below `2 ^ 127`, rounded to 24 significant bits. A carry out
of the significand falls into the exponent field, where it belongs. -/
def ofNat (m : Nat) : UInt32 :=
  if m = 0 then 0
  else
    let e := m.log2
    let significand := if e ≤ 23 then m <<< (23 - e) else roundShift m (e - 23)
    UInt32.ofNat ((e + 126) <<< 23 + significand)

/-- The pattern of a signed word. -/
def ofInt (w : UInt32) : UInt32 :=
  let i := w.toInt32.toInt
  if i < 0 then ofNat i.natAbs ||| 0x80000000 else ofNat i.natAbs

/-- A number cut to an integer, of which the low 32 bits are kept. Numbers outside the signed
64-bit range, infinities and NaNs give zero. -/
def toInt (w : UInt32) : UInt32 :=
  let exponent := ((w >>> 23) &&& 0xFF).toNat
  let significand := (w &&& 0x7FFFFF ||| 0x800000).toNat
  if exponent < 127 ∨ 127 + 63 ≤ exponent then 0
  else
    let e := exponent - 127
    let magnitude := UInt32.ofNat (significand <<< e >>> 23)
    if w >>> 31 = 1 then -magnitude else magnitude

/-- A binary operation on numbers, as an operation on patterns. -/
@[inline] def lift (f : Float32 → Float32 → Float32) (x y : UInt32) : UInt32 :=
  (f (.ofBits x) (.ofBits y)).toBits

end Binary32

namespace Opcode

/-- Whether a branch on `x` and `y` is taken. -/
def holds (op : Opcode) (x y : UInt32) : Bool :=
  match op with
  | eq => x == y
  | ne => x != y
  | lti => x.toInt32 < y.toInt32
  | lei => x.toInt32 ≤ y.toInt32
  | gti => y.toInt32 < x.toInt32
  | gei => y.toInt32 ≤ x.toInt32
  | ltu => x < y
  | leu => x ≤ y
  | gtu => y < x
  | geu => y ≤ x
  | eqf => Float32.ofBits x == Float32.ofBits y
  | nef => !(Float32.ofBits x == Float32.ofBits y)
  | ltf => Float32.ofBits x < Float32.ofBits y
  | lef => Float32.ofBits x ≤ Float32.ofBits y
  | gtf => Float32.ofBits y < Float32.ofBits x
  | gef => Float32.ofBits y ≤ Float32.ofBits x
  | _ => false

/-- The value of a one-operand instruction. -/
def unary (op : Opcode) (x : UInt32) : UInt32 :=
  match op with
  | signExtend8 => x.toUInt8.toInt8.toInt32.toUInt32
  | signExtend16 => x.toUInt16.toInt16.toInt32.toUInt32
  | negi => -x
  | bcom => ~~~x
  | negf => x ^^^ 0x80000000
  | intToFloat => Binary32.ofInt x
  | floatToInt => Binary32.toInt x
  | _ => x

/-- The value of a two-operand instruction other than a division. Shift counts are taken modulo
the word size. -/
def binary (op : Opcode) (x y : UInt32) : UInt32 :=
  match op with
  | add => x + y
  | sub => x - y
  | muli | mulu => x * y
  | band => x &&& y
  | bor => x ||| y
  | bxor => x ^^^ y
  | lsh => x <<< (y &&& 31)
  | rshi => (x.toInt32 >>> (y &&& 31).toInt32).toUInt32
  | rshu => x >>> (y &&& 31)
  | addf => Binary32.lift (· + ·) x y
  | subf => Binary32.lift (· - ·) x y
  | mulf => Binary32.lift (· * ·) x y
  | divf => Binary32.lift (· / ·) x y
  | _ => 0

/-- The value of an integer division or remainder by `y`, which is not zero. Signed division cuts
toward zero, and the least word divided by minus one is itself. -/
def divide (op : Opcode) (x y : UInt32) : UInt32 :=
  match op with
  | divi => (x.toInt32 / y.toInt32).toUInt32
  | divu => x / y
  | modi => (x.toInt32 % y.toInt32).toUInt32
  | modu => x % y
  | _ => 0

end Opcode

end BytecodeHost
