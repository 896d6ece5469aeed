import BytecodeHost.Failure
import BytecodeHost.Text.Quoted

/-!
# Base58

A byte string is written as the base-58 digits of the number it stands for, most significant
first, after one `1` for each leading zero byte.

## Main definitions

* `Base58.encode`, `Base58.decode`.
* `Base58.Error`: why a text is refused; the first bad character decides.
-/

namespace BytecodeHost

namespace Base58

/-- The digits, least first. -/
def alphabet : List Char :=
  "123456789ABCDEFGHJKLMNPQRSTUVWXYZabcdefghijkmnopqrstuvwxyz".toList

/-- The digit of a value below 58. -/
def digit (n : Nat) : Char :=
  alphabet.getD n '1'

/-- The value of a digit. -/
def value? (c : Char) : Option Nat :=
  alphabet.findIdx? (· == c)

/-- Why a text is not base58. -/
inductive Error where
  /-- There is nothing to decode. -/
  | empty
  /-- A character outside ASCII. -/
  | highBit
  /-- An ASCII character that is no digit. -/
  | badDigit (c : Char)
  deriving DecidableEq

/-- The wording of a base58 error. -/
def Error.message : Error → String
  | empty => "zero length string"
  | highBit => "high-bit set on invalid digit"
  | badDigit c => "invalid base58 digit (" ++ Text.quotedChar c ++ ")"

/-- The failure that a base58 error is. -/
def Error.toFailure (e : Error) : Failure :=
  .plain e.message

/-- The number whose base-256 digits are given, most significant first. -/
def numberOf (b : List UInt8) : Nat :=
  b.foldl (fun n x => 256 * n + x.toNat) 0

/-- The digits of a number in a base, most significant first, in front of `rest`; `fuel` is at
least their number. -/
def digitsIn (base : Nat) : (fuel n : Nat) → List Nat → List Nat
  | 0, _, rest => rest
  | fuel + 1, n, rest => if n = 0 then rest else digitsIn base fuel (n / base) (n % base :: rest)

/-- The base58 text of a byte string. -/
def encode (b : ByteArray) : String :=
  let bytes := b.data.toList
  let zeros := bytes.takeWhile (· == 0)
  let n := numberOf bytes
  String.ofList (zeros.map (fun _ => '1') ++ (digitsIn 58 (2 * bytes.length) n []).map digit)

/-- The number whose base-58 digits are given, or the first character that is none. -/
def numberOfDigits (n : Nat) : List Char → Except Error Nat
  | [] => .ok n
  | c :: cs =>
    if 127 < c.toNat then .error .highBit
    else
      match value? c with
      | none => .error (.badDigit c)
      | some v => numberOfDigits (58 * n + v) cs

/-- The byte string that a base58 text stands for. -/
def decode (s : String) : Except Error ByteArray :=
  let cs := s.toList
  if cs.isEmpty then .error .empty
  else
    match numberOfDigits 0 cs with
    | .error e => .error e
    | .ok n =>
      let zeros := cs.takeWhile (· == '1')
      .ok ⟨(zeros.map (fun _ => (0 : UInt8))
        ++ (digitsIn 256 cs.length n []).map Nat.toUInt8).toArray⟩

end Base58

end BytecodeHost
