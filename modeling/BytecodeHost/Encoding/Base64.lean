import BytecodeHost.Failure

/-!
# Base64

Three bytes are written as four digits; a shorter last group is filled up with `=`. A reader skips
line ends, needs the padding, and does not mind left-over bits in the last digit. A text that is
no base64 is refused with the offset of the byte at fault.

## Main definitions

* `Base64.encode`, `Base64.decode`.
-/

namespace BytecodeHost

namespace Base64

/-- The digit of a value below 64. -/
def digit (n : Nat) : Char :=
  if n < 26 then Char.ofNat (65 + n)
  else if n < 52 then Char.ofNat (71 + n)
  else if n < 62 then Char.ofNat (n - 4)
  else if n = 62 then '+'
  else '/'

/-- The value of a digit byte. -/
def value? (b : UInt8) : Option Nat :=
  let n := b.toNat
  if 65 ≤ n ∧ n ≤ 90 then some (n - 65)
  else if 97 ≤ n ∧ n ≤ 122 then some (n - 71)
  else if 48 ≤ n ∧ n ≤ 57 then some (n + 4)
  else if n = 43 then some 62
  else if n = 47 then some 63
  else none

/-- Appends the digits of the groups of `n` bytes from offset `i` on. -/
def encodeFrom (b : ByteArray) : (fuel i : Nat) → String → String
  | 0, _, s => s
  | fuel + 1, i, s =>
    if b.size ≤ i then s
    else
      let group := 65536 * (Bytes.byteAt b i).toNat + 256 * (Bytes.byteAt b (i + 1)).toNat
        + (Bytes.byteAt b (i + 2)).toNat
      let s := (s.push (digit (group / 262144))).push (digit (group / 4096 % 64))
      let s := s.push (if b.size < i + 2 then '=' else digit (group / 64 % 64))
      let s := s.push (if b.size < i + 3 then '=' else digit (group % 64))
      encodeFrom b fuel (i + 3) s

/-- The base64 text of a byte string. -/
def encode (b : ByteArray) : String :=
  encodeFrom b b.size 0 ""

/-- Whether a byte ends a line. -/
def isLineEnd (b : UInt8) : Bool :=
  b == 10 || b == 13

/-- The offset of the next byte that ends no line; `fuel` bounds the search. -/
def skipLineEnds (b : ByteArray) : (fuel i : Nat) → Nat
  | 0, i => i
  | fuel + 1, i =>
    if i < b.size ∧ isLineEnd (Bytes.byteAt b i) then skipLineEnds b fuel (i + 1) else i

/-- Appends the bytes of a group of `digits` digits with value `group`, most significant digit
first. -/
def pushGroup (out : ByteArray) (digits group : Nat) : ByteArray :=
  let group := group <<< (6 * (4 - digits))
  let out := if 2 ≤ digits then out.push (group / 65536).toUInt8 else out
  let out := if 3 ≤ digits then out.push (group / 256).toUInt8 else out
  if 4 ≤ digits then out.push group.toUInt8 else out

/-- What follows the first `=` of a group of `digits` digits, from offset `i` on: the second one
if two digits are missing, and then nothing but line ends. -/
def checkPadding (b : ByteArray) (digits i : Nat) : Except Nat Unit :=
  let finish (i : Nat) : Except Nat Unit :=
    let i := skipLineEnds b b.size i
    if i < b.size then .error i else .ok ()
  if digits < 2 then .error (i - 1)
  else if digits = 2 then
    let i := skipLineEnds b b.size i
    if b.size ≤ i then .error b.size
    else if Bytes.byteAt b i = 61 then finish (i + 1)
    else .error (i - 1)
  else finish i

/-- Decodes from offset `i` on, in the middle of a group that so far has `digits` digits with
value `group`. -/
def decodeFrom (b : ByteArray) : (fuel i digits group : Nat) → ByteArray → Except Nat ByteArray
  | 0, _, _, _, out => .ok out
  | fuel + 1, i, digits, group, out =>
    if b.size ≤ i then
      if digits = 0 then .ok out else .error (i - digits)
    else
      let byte := Bytes.byteAt b i
      match value? byte with
      | some v =>
        if digits = 3 then decodeFrom b fuel (i + 1) 0 0 (pushGroup out 4 (64 * group + v))
        else decodeFrom b fuel (i + 1) (digits + 1) (64 * group + v) out
      | none =>
        if isLineEnd byte then decodeFrom b fuel (i + 1) digits group out
        else if byte = 61 then
          match checkPadding b digits (i + 1) with
          | .error at_ => .error at_
          | .ok () => .ok (pushGroup out digits group)
        else .error i

/-- The byte string that a base64 text stands for, or the offset of the byte at fault. -/
def decode (s : String) : Except Nat ByteArray :=
  let b := s.toUTF8
  decodeFrom b (b.size + 1) 0 0 0 .empty

/-- The failure of a text that is no base64 at an offset. -/
def corrupt (offset : Nat) : Failure :=
  .plain s!"illegal base64 data at input byte {offset}"

end Base64

end BytecodeHost
