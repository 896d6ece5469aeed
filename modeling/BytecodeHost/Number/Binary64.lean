import BytecodeHost.Number.Decimal

/-!
# Double-precision numbers

Finite double-precision numbers as an integer times a power of two. A decimal number is rounded to
the nearest of them, ties to the even integer; a double is written with the fewest digits that
round back to it, the nearest of those if there are several.

All arithmetic is exact: rounding compares integers.
-/

namespace BytecodeHost

/-- The number `±mantissa · 2 ^ exponent`. The mantissa has at most 53 bits, and fewer only at the
least exponent. -/
structure Binary64 where
  /-- Whether the number has a minus sign. -/
  negative : Bool
  /-- The integer. -/
  mantissa : Nat
  /-- The power of two. -/
  exponent : Int
  deriving DecidableEq

namespace Binary64

/-- The exponent of the least positive number. -/
def minExponent : Int := -1074

/-- The greatest exponent. -/
def maxExponent : Int := 971

/-- The bits of a natural number. -/
def bitCount (n : Nat) : Nat :=
  if n = 0 then 0 else n.log2 + 1

/-- A quotient rounded to the nearest integer, ties to even. -/
def roundDiv (n d : Nat) : Nat :=
  let q := n / d
  let r := n % d
  if 2 * r < d ∨ (2 * r = d ∧ q % 2 = 0) then q else q + 1

/-- `n / (d · 2 ^ e)` as a quotient of natural numbers. -/
def scaleDown (n d : Nat) (e : Int) : Nat × Nat :=
  if 0 ≤ e then (n, d <<< e.toNat) else (n <<< (-e).toNat, d)

/-- The exponent that gives a quotient a mantissa of 53 bits, or the least exponent. -/
def exponentFor (n d : Nat) : Int :=
  let e : Int := (bitCount n : Int) - bitCount d - 53
  let (a, b) := scaleDown n d e
  max minExponent (if a / b < 1 <<< 53 then e else e + 1)

/-- The number nearest to a quotient, unless that is too large. -/
def ofQuotient? (negative : Bool) (n d : Nat) : Option Binary64 :=
  let e := exponentFor n d
  let (a, b) := scaleDown n d e
  let m := roundDiv a b
  let (m, e) := if m = 1 <<< 53 then (1 <<< 52, e + 1) else (m, e)
  if maxExponent < e then none else some ⟨negative, m, e⟩

/-- The number nearest to a decimal number, unless that is too large. -/
def ofDecimal? (d : Decimal) : Option Binary64 :=
  let size := Decimal.digitCount d.digits + d.exponent
  if d.digits = 0 ∨ size < -330 then some ⟨d.negative, 0, minExponent⟩
  else if 310 < size then none
  else if 0 ≤ d.exponent then ofQuotient? d.negative (d.digits * Nat.pow 10 d.exponent.toNat) 1
  else ofQuotient? d.negative d.digits (Nat.pow 10 (-d.exponent).toNat)

/-! ## Arithmetic -/

/-- The numerator of a number's magnitude. -/
def numerator (x : Binary64) : Nat :=
  x.mantissa <<< x.exponent.toNat

/-- The denominator of a number's magnitude. -/
def denominator (x : Binary64) : Nat :=
  1 <<< (-x.exponent).toNat

/-- The number nearest to a natural number, unless that is too large. -/
def ofNat? (n : Nat) : Option Binary64 :=
  ofQuotient? false n 1

/-- The product, rounded to the nearest number. -/
def mul? (x y : Binary64) : Option Binary64 :=
  ofQuotient? (x.negative != y.negative) (x.numerator * y.numerator)
    (x.denominator * y.denominator)

/-- The quotient, rounded to the nearest number; the divisor must not be zero. -/
def div? (x y : Binary64) : Option Binary64 :=
  ofQuotient? (x.negative != y.negative) (x.numerator * y.denominator)
    (x.denominator * y.numerator)

/-- The integer part of a number's magnitude. -/
def floor (x : Binary64) : Nat :=
  x.numerator / x.denominator

/-! ## Fewest digits -/

/-- A positive number together with the ends of the interval of reals that round to it, over one
denominator. -/
structure Neighbourhood where
  /-- The numerator of the lower end. -/
  low : Nat
  /-- The numerator of the number. -/
  value : Nat
  /-- The numerator of the upper end. -/
  high : Nat
  /-- The denominator. -/
  denominator : Nat
  /-- Whether the ends round to the number. -/
  closed : Bool

/-- The reals that round to a positive number. Below a power of two they are half as wide. -/
def neighbourhood (x : Binary64) : Neighbourhood :=
  let narrow := x.mantissa = 1 <<< 52 ∧ minExponent < x.exponent
  let e := x.exponent - 2
  let up := 1 <<< e.toNat
  { low := (4 * x.mantissa - if narrow then 1 else 2) * up
    value := 4 * x.mantissa * up
    high := (4 * x.mantissa + 2) * up
    denominator := 1 <<< (-e).toNat
    closed := x.mantissa % 2 = 0 }

namespace Neighbourhood

/-- Whether `c · 10 ^ u` rounds to the number. -/
def holds (b : Neighbourhood) (u : Int) (c : Nat) : Bool :=
  let scaled := c * b.denominator * Nat.pow 10 u.toNat
  let unit := Nat.pow 10 (-u).toNat
  if b.closed then b.low * unit ≤ scaled && scaled ≤ b.high * unit
  else b.low * unit < scaled && scaled < b.high * unit

/-- The multiple of `10 ^ u` nearest to the number that rounds to it, if there is one. -/
def nearest? (b : Neighbourhood) (u : Int) : Option Nat :=
  let n := b.value * Nat.pow 10 (-u).toNat
  let d := b.denominator * Nat.pow 10 u.toNat
  let c := n / d
  let best := roundDiv n d
  let other := if best = c then c + 1 else c
  if b.holds u best then some best else if b.holds u other then some other else none

/-- Whether the number is below `10 ^ p`. -/
def below (b : Neighbourhood) (p : Int) : Bool :=
  b.value * Nat.pow 10 (-p).toNat < b.denominator * Nat.pow 10 p.toNat

/-- The shortest decimal number with `n` digits or more, `fuel` more at most. -/
def search (b : Neighbourhood) (point : Int) : (fuel n : Nat) → Nat × Int
  | 0, n => (b.value / b.denominator, n)
  | fuel + 1, n =>
    match b.nearest? (point - n) with
    | some c => (c, point - n)
    | none => search b point fuel (n + 1)

end Neighbourhood

/-- The decimal number with the fewest digits that rounds to a number. -/
def shortest (x : Binary64) : Decimal :=
  if x.mantissa = 0 then { negative := x.negative, digits := 0 }
  else
    let b := x.neighbourhood
    let estimate := (((bitCount x.mantissa : Int) + x.exponent - 1) * 30103).fdiv 100000
    let points := [estimate - 1, estimate, estimate + 1, estimate + 2]
    let point := (points.find? b.below).getD (estimate + 2)
    let (digits, exponent) := b.search point 17 1
    { negative := x.negative, digits, exponent }

end Binary64

end BytecodeHost
