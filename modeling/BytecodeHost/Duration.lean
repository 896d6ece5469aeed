import BytecodeHost.Number.Binary64

/-!
# Durations

A duration is a whole number of nanoseconds. Its text is a sequence of decimal numbers with units,
such as `1h30m` or `1.5µs`; fractions are taken in double precision and then cut to whole
nanoseconds.

## Main definitions

* `Duration.parse?`: reads a duration.
* `Duration.render`: writes one.
-/

namespace BytecodeHost

namespace Duration

/-- One more than the largest duration, in nanoseconds. -/
def bound : Nat := 1 <<< 63

/-- The units with their nanoseconds. -/
def units : List (String × Nat) :=
  [("ns", 1), ("us", 1000), ("µs", 1000), ("μs", 1000), ("ms", 1000000), ("s", 1000000000),
   ("m", 60000000000), ("h", 3600000000000)]

/-- The value of decimal digits, unless it passes the bound. -/
def natOfDigits? (digits : List Char) : Option Nat :=
  let n := digits.foldl (fun n c => 10 * n + (c.toNat - '0'.toNat)) 0
  if bound < n then none else some n

/-- Adds a digit to a fraction of the form `value / scale`. Digits after the first that does not
fit count for nothing. -/
def addFractionDigit (f : Nat × Nat × Bool) (c : Char) : Nat × Nat × Bool :=
  match f with
  | (value, scale, full) =>
    let next := 10 * value + (c.toNat - '0'.toNat)
    if full ∨ (bound - 1) / 10 < value ∨ bound < next then (value, scale, true)
    else (next, scale * 10, false)

/-- The nanoseconds in `value / scale` of a unit: the quotient of unit and scale is rounded to
double precision, and so is its product with the value. -/
def fractionOf (value scale unit : Nat) : Nat :=
  let product := do
    let quotient ← (← Binary64.ofNat? unit).div? (← Binary64.ofNat? scale)
    (← Binary64.ofNat? value).mul? quotient
  (product.map Binary64.floor).getD 0

/-- The nanoseconds of a number with digits before and after its point. -/
def amount? (whole fraction : List Char) (unit : Nat) : Option Nat := do
  let n ← natOfDigits? whole
  if bound / unit < n then none
  else
    let (value, scale, _) := fraction.foldl addFractionDigit (0, 1, false)
    let total := n * unit + if value = 0 then 0 else fractionOf value scale unit
    if bound < total then none else some total

/-- The digits after a point, if there is one. -/
def splitFraction : List Char → List Char × List Char
  | '.' :: rest => rest.span Char.isDigit
  | s => ([], s)

/-- Whether a character can be part of a unit. -/
def isUnitChar (c : Char) : Bool :=
  c ≠ '.' && !c.isDigit

/-- Adds the numbers with units in a text to a sum, which wraps at 64 bits. The fuel bounds their
number. -/
def sum? : (fuel total : Nat) → List Char → Option Nat
  | _, total, [] => some total
  | 0, _, _ => none
  | fuel + 1, total, s => do
    let (whole, s) := s.span Char.isDigit
    let (fraction, s) := splitFraction s
    if whole.isEmpty ∧ fraction.isEmpty then none
    else
      let (unit, rest) := s.span isUnitChar
      let added ← amount? whole fraction (← units.lookup (String.ofList unit))
      let total := (total + added) % 1 <<< 64
      if bound < total then none else sum? fuel total rest

/-- The magnitude of a duration. -/
def magnitude? (s : List Char) : Option Nat :=
  if s = ['0'] then some 0 else if s.isEmpty then none else sum? s.length 0 s

/-- Reads a duration. -/
def parse? (text : String) : Option Int :=
  match text.toList with
  | '-' :: s => (magnitude? s).map fun n => -(n : Int)
  | '+' :: s => positive? s
  | s => positive? s
where
  /-- A duration without a minus sign. -/
  positive? (s : List Char) : Option Int :=
    match magnitude? s with
    | some n => if n < bound then some n else none
    | none => none

/-- `n / 10 ^ places` without trailing zeros. -/
def decimal (n places : Nat) : String :=
  let one := Nat.pow 10 places
  let fraction := (Nat.toDigits 10 (one + n % one)).drop 1
  let shown := (fraction.reverse.dropWhile (· = '0')).reverse
  toString (n / one) ++ if shown.isEmpty then "" else "." ++ String.ofList shown

/-- The text of nanoseconds. -/
def renderNat (n : Nat) : String :=
  if n = 0 then "0s"
  else if n < 1000 then toString n ++ "ns"
  else if n < 1000000 then decimal n 3 ++ "µs"
  else if n < 1000000000 then decimal n 6 ++ "ms"
  else
    let minutes := n / 60000000000
    let seconds := decimal (n % 60000000000) 9 ++ "s"
    if minutes = 0 then seconds
    else if minutes < 60 then toString minutes ++ "m" ++ seconds
    else toString (minutes / 60) ++ "h" ++ toString (minutes % 60) ++ "m" ++ seconds

/-- Writes a duration. -/
def render (d : Int) : String :=
  if d < 0 then "-" ++ renderNat d.natAbs else renderNat d.natAbs

end Duration

end BytecodeHost
