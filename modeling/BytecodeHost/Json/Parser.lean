import BytecodeHost.Json.Value
import BytecodeHost.Text

/-!
# Reading JSON

A reader of byte strings. Blanks are allowed around every part, values may be nested 10000 deep,
and bytes inside strings that are no UTF-8, as well as halves of surrogate pairs, stand for U+FFFD.

The reader works on the list of bytes that are left. Its fuel bounds the number of values, so the
length of the input is always enough.

## Main definitions

* `JsonValue.parse?`: the value that a byte string is.
-/

namespace BytecodeHost

namespace JsonValue

/-- How deep arrays and objects may be nested. -/
def maxDepth : Nat := 10000

/-- Blank, tab, line feed or carriage return. -/
def isBlank (b : UInt8) : Bool :=
  b == 0x20 || b == 0x09 || b == 0x0A || b == 0x0D

/-- What is left after blanks. -/
def skipBlank (s : List UInt8) : List UInt8 :=
  s.dropWhile isBlank

/-! ## Strings -/

/-- The UTF-8 bytes of a code point; halves of surrogate pairs are shown as U+FFFD. -/
def pushCodePoint (out : ByteArray) (n : Nat) : ByteArray :=
  if h : n.isValidChar then out ++ (String.singleton (Char.ofNatAux n h)).toUTF8
  else out ++ "\uFFFD".toUTF8

/-- A half of a surrogate pair that stands alone is shown as U+FFFD. -/
def flush (out : ByteArray) (pending : Option Nat) : ByteArray :=
  match pending with
  | none => out
  | some n => pushCodePoint out n

/-- Appends a code unit, given the half of a surrogate pair that came before it. -/
def pushUnit (out : ByteArray) (pending : Option Nat) (unit : Nat) : ByteArray × Option Nat :=
  match pending with
  | some high =>
    if 0xDC00 ≤ unit ∧ unit < 0xE000 then
      (pushCodePoint out (0x10000 + (high - 0xD800) * 0x400 + (unit - 0xDC00)), none)
    else
      let out := pushCodePoint out high
      if 0xD800 ≤ unit ∧ unit < 0xDC00 then (out, some unit) else (pushCodePoint out unit, none)
  | none =>
    if 0xD800 ≤ unit ∧ unit < 0xDC00 then (out, some unit) else (pushCodePoint out unit, none)

/-- The byte that an escape letter stands for. -/
def escapedByte? (b : UInt8) : Option UInt8 :=
  match b with
  | 0x22 => some 0x22
  | 0x5C => some 0x5C
  | 0x2F => some 0x2F
  | 0x62 => some 0x08
  | 0x66 => some 0x0C
  | 0x6E => some 0x0A
  | 0x72 => some 0x0D
  | 0x74 => some 0x09
  | _ => none

/-- The value of a hexadecimal digit. -/
def hexDigit? (b : UInt8) : Option Nat :=
  (Bytes.hexValue? (Char.ofNat b.toNat)).map (·.toNat)

/-- The code unit that four hexadecimal digits stand for. -/
def codeUnit? (a b c d : UInt8) : Option Nat := do
  let a ← hexDigit? a
  let b ← hexDigit? b
  let c ← hexDigit? c
  let d ← hexDigit? d
  return ((a * 16 + b) * 16 + c) * 16 + d

/-- The rest of a string after its opening mark, and what follows it. -/
def readString? (out : ByteArray) (pending : Option Nat) :
    List UInt8 → Option (ByteArray × List UInt8)
  | [] => none
  | 0x22 :: rest => some (flush out pending, rest)
  | 0x5C :: 0x75 :: a :: b :: c :: d :: rest =>
    match codeUnit? a b c d with
    | some unit => match pushUnit out pending unit with
      | (out, pending) => readString? out pending rest
    | none => none
  | 0x5C :: b :: rest =>
    match escapedByte? b with
    | some x => readString? ((flush out pending).push x) none rest
    | none => none
  | b :: rest =>
    if b < 0x20 ∨ b = 0x5C then none else readString? ((flush out pending).push b) none rest

/-- The rest of a string as text. -/
def readText (s : List UInt8) : Option (String × List UInt8) :=
  match readString? .empty none s with
  | some (b, rest) => some (Text.lossy ⟨b⟩, rest)
  | none => none

/-! ## Numbers -/

/-- Whether a byte is a decimal digit. -/
def isDigit (b : UInt8) : Bool :=
  0x30 ≤ b && b ≤ 0x39

/-- The value of decimal digits after earlier ones. -/
def natOfDigits (start : Nat) (digits : List UInt8) : Nat :=
  digits.foldl (fun n b => 10 * n + (b.toNat - 0x30)) start

/-- Digits, of which there must be one, and what follows them. -/
def readDigits? (s : List UInt8) : Option (List UInt8 × List UInt8) :=
  match s.span isDigit with
  | ([], _) => none
  | r => some r

/-- The digits before the point: a zero stands alone. -/
def readWhole? (s : List UInt8) : Option (List UInt8 × List UInt8) :=
  match s with
  | 0x30 :: rest => some ([0x30], rest)
  | _ => readDigits? s

/-- The digits after the point, if there is one. -/
def readFraction? (s : List UInt8) : Option (List UInt8 × List UInt8) :=
  match s with
  | 0x2E :: rest => readDigits? rest
  | _ => some ([], s)

/-- An exponent after its letter. -/
def readSigned? (s : List UInt8) : Option (Int × List UInt8) :=
  match s with
  | 0x2D :: rest => (readDigits? rest).map fun (ds, r) => (-(natOfDigits 0 ds : Int), r)
  | 0x2B :: rest => (readDigits? rest).map fun (ds, r) => ((natOfDigits 0 ds : Int), r)
  | _ => (readDigits? s).map fun (ds, r) => ((natOfDigits 0 ds : Int), r)

/-- The exponent, if there is one. -/
def readExponent? (s : List UInt8) : Option (Option Int × List UInt8) :=
  match s with
  | b :: rest =>
    if b = 0x65 ∨ b = 0x45 then (readSigned? rest).map fun (e, r) => (some e, r)
    else some (none, s)
  | [] => some (none, s)

/-- A number after its sign. -/
def readNumber? (negative : Bool) (s : List UInt8) : Option (JsonNumber × List UInt8) := do
  let (whole, s) ← readWhole? s
  let (fraction, s) ← readFraction? s
  let (exponent, s) ← readExponent? s
  let digits := natOfDigits (natOfDigits 0 whole) fraction
  let value : Decimal := ⟨negative, digits, exponent.getD 0 - fraction.length⟩
  return (⟨value, fraction.isEmpty && exponent.isNone⟩, s)

/-! ## Values -/

/-- What follows the given bytes, if the input starts with them. -/
def readWord? : (word s : List UInt8) → Option (List UInt8)
  | [], s => some s
  | w :: word, b :: s => if w = b then readWord? word s else none
  | _, [] => none

/-- What follows a byte, which may stand after blanks. -/
def readMark? (mark : UInt8) (s : List UInt8) : Option (List UInt8) :=
  readWord? [mark] (skipBlank s)

mutual

/-- A value and what follows it; `depth` levels may still be opened. -/
def read? : (fuel depth : Nat) → List UInt8 → Option (JsonValue × List UInt8)
  | 0, _, _ => none
  | fuel + 1, depth, s =>
    match skipBlank s with
    | [] => none
    | b :: rest =>
      if b = 0x7B then
        match depth, skipBlank rest with
        | 0, _ => none
        | _, 0x7D :: rest => some (object [], rest)
        | depth + 1, rest => readMembers? fuel depth [] rest
      else if b = 0x5B then
        match depth, skipBlank rest with
        | 0, _ => none
        | _, 0x5D :: rest => some (array [], rest)
        | depth + 1, rest => readItems? fuel depth [] rest
      else if b = 0x22 then (readText rest).map fun (t, r) => (string t, r)
      else if b = 0x74 then (readWord? "rue".toUTF8.toList rest).map (bool true, ·)
      else if b = 0x66 then (readWord? "alse".toUTF8.toList rest).map (bool false, ·)
      else if b = 0x6E then (readWord? "ull".toUTF8.toList rest).map (null, ·)
      else if b = 0x2D then (readNumber? true rest).map fun (n, r) => (number n, r)
      else (readNumber? false (b :: rest)).map fun (n, r) => (number n, r)

/-- The items of an array from the next one on; those before it are given in reverse. -/
def readItems? : (fuel depth : Nat) → List JsonValue → List UInt8 →
    Option (JsonValue × List UInt8)
  | 0, _, _, _ => none
  | fuel + 1, depth, items, s => do
    let (v, s) ← read? fuel depth s
    match skipBlank s with
    | 0x2C :: rest => readItems? fuel depth (v :: items) rest
    | 0x5D :: rest => some (array (v :: items).reverse, rest)
    | _ => none

/-- The members of an object from the next one on; those before it are given in reverse. -/
def readMembers? : (fuel depth : Nat) → List (String × JsonValue) → List UInt8 →
    Option (JsonValue × List UInt8)
  | 0, _, _, _ => none
  | fuel + 1, depth, members, s => do
    let (name, s) ← readText (← readMark? 0x22 s)
    let (v, s) ← read? fuel depth (← readMark? 0x3A s)
    match skipBlank s with
    | 0x2C :: rest => readMembers? fuel depth ((name, v) :: members) rest
    | 0x7D :: rest => some (object ((name, v) :: members).reverse, rest)
    | _ => none

end

/-- The value that a byte string is, blanks around it apart. -/
def parse? (s : List UInt8) : Option JsonValue :=
  match read? (2 * s.length + 2) maxDepth s with
  | some (v, rest) => if (skipBlank rest).isEmpty then some v else none
  | none => none

end JsonValue

end BytecodeHost
