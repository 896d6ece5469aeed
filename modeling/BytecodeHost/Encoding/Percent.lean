import BytecodeHost.Bytes

/-!
# Percent encoding

Bytes of a path that stand for nothing but themselves are written as they are, all others as a
percent sign and two hexadecimal digits. A reader takes any byte in either way.

## Main definitions

* `Percent.encode`, `Percent.decode`: bytes as text and back.
* `Percent.normalize`: the one text that `encode` would have written for the same bytes. Slashes and
  dots are written as they are, so a normal text has the same parts as the bytes it stands for.
-/

namespace BytecodeHost

namespace Percent

/-- The marks that a path may hold as they are. -/
def marks : List Char :=
  "-_.~$&+,/:;=@".toList

/-- Whether a character of a path is written as it is. -/
def isPlain (c : Char) : Bool :=
  c.isAlphanum || marks.contains c

/-- An upper-case hexadecimal digit. -/
def digit (n : UInt8) : Char :=
  (Bytes.hexDigit n).toUpper

/-- The text of bytes. -/
def encode (bytes : List UInt8) : String :=
  bytes.foldl (fun s x =>
    let c := Char.ofUInt8 x
    if isPlain c then s.push c
    else ((s.push '%').push (digit (x >>> 4))).push (digit (x &&& 15))) ""

/-- The bytes that a text stands for. A percent sign without two digits stands for itself. -/
def decode : List UInt8 → List UInt8
  | 0x25 :: x :: y :: rest =>
    match Bytes.hexValue? (Char.ofUInt8 x), Bytes.hexValue? (Char.ofUInt8 y) with
    | some high, some low => (high <<< 4 ||| low) :: decode rest
    | _, _ => 0x25 :: decode (x :: y :: rest)
  | x :: rest => x :: decode rest
  | [] => []

/-- A text as `encode` would have written it. -/
def normalize (s : String) : String :=
  encode (decode s.toUTF8.toList)

end Percent

end BytecodeHost
