/-!
# Decimal numbers

A decimal number is a sign, a natural number and a power of ten. Its text is positional between
10⁻⁶ and 10²¹ and scientific outside.
-/

namespace BytecodeHost

/-- The number `±digits · 10 ^ exponent`. -/
structure Decimal where
  /-- Whether the number has a minus sign; zero may have one. -/
  negative : Bool := false
  /-- The digits as a natural number. -/
  digits : Nat
  /-- The power of ten. -/
  exponent : Int := 0
  deriving DecidableEq

namespace Decimal

/-- An integer. -/
def ofInt (i : Int) : Decimal :=
  { negative := i < 0, digits := i.natAbs }

/-- The number of decimal digits of a natural number, one for zero. -/
def digitCount (n : Nat) : Nat :=
  (Nat.toDigits 10 n).length

/-- The least exponent from which on numbers are scientific. -/
def scientificFrom : Int := 21

/-- The greatest exponent up to which numbers are scientific. -/
def scientificTo : Int := -7

/-- `n` zeros. -/
def zeroDigits (n : Nat) : List Char :=
  List.replicate n '0'

/-- Digits without trailing zeros. -/
def significant (digits : List Char) : List Char :=
  (digits.reverse.dropWhile (· = '0')).reverse

/-- A number with a point after its first digit and an exponent. -/
def scientific (digits : List Char) (exponent : Int) : String :=
  let fraction := if 1 < digits.length then '.' :: digits.drop 1 else []
  let sign := if exponent < 0 then "-" else "+"
  String.ofList (digits.take 1 ++ fraction) ++ "e" ++ sign ++ toString exponent.natAbs

/-- A number without exponent; the point stands after `point` digits, which may be negative. -/
def positional (digits : List Char) (point : Int) : String :=
  let n := digits.length
  if point ≤ 0 then String.ofList ('0' :: '.' :: zeroDigits (-point).toNat ++ digits)
  else if n ≤ point.toNat then String.ofList (digits ++ zeroDigits (point.toNat - n))
  else String.ofList (digits.take point.toNat ++ '.' :: digits.drop point.toNat)

/-- The text of a number. -/
def toText (d : Decimal) : String :=
  let sign := if d.negative then "-" else ""
  if d.digits = 0 then sign ++ "0"
  else
    let all := Nat.toDigits 10 d.digits
    let point := all.length + d.exponent
    let digits := significant all
    if point - 1 ≤ scientificTo ∨ scientificFrom ≤ point - 1 then
      sign ++ scientific digits (point - 1)
    else sign ++ positional digits point

end Decimal

end BytecodeHost
