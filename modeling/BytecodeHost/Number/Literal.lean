/-!
# Integer literals

Integers as people write them: an optional sign, an optional base mark (`0x`, `0o`, `0b`, or a
leading zero for octal), and digits with underscores between them.

Digits are read from left to right, and the first problem counts: a literal that is already too
large is too large whatever follows.

## Main definitions

* `Literal.readNat`: a literal without a sign.
* `Literal.readInt`: a literal with an optional sign.
-/

namespace BytecodeHost

namespace Literal

/-- Why a text is no literal. -/
inductive Problem where
  /-- It is not written like one. -/
  | malformed
  /-- It does not fit. -/
  | outOfRange
  deriving DecidableEq

/-- The wording of a problem. -/
def Problem.message : Problem → String
  | malformed => "invalid syntax"
  | outOfRange => "value out of range"

/-- The value of a digit or a letter that stands for one. -/
def digitValue? (c : Char) : Option Nat :=
  if c.isDigit then some (c.toNat - '0'.toNat)
  else if c.isAlpha then some (c.toLower.toNat - 'a'.toNat + 10)
  else none

/-- Reads digits after those that gave `value`; the value stays below `bound`. -/
def readDigits (base bound : Nat) (value : Nat) : List Char → Except Problem Nat
  | [] => .ok value
  | c :: rest =>
    if c = '_' then readDigits base bound value rest
    else
      match digitValue? c with
      | none => .error .malformed
      | some d =>
        if base ≤ d then .error .malformed
        else if bound ≤ value * base + d then .error .outOfRange
        else readDigits base bound (value * base + d) rest

/-- The base of a literal and its digits. -/
def splitBase : List Char → Nat × List Char
  | '0' :: m :: c :: rest =>
    match m.toLower with
    | 'b' => (2, c :: rest)
    | 'o' => (8, c :: rest)
    | 'x' => (16, c :: rest)
    | _ => (8, m :: c :: rest)
  | '0' :: rest => (8, rest)
  | s => (10, s)

/-- Whether underscores stand between digits only; `afterDigit` says what came before. -/
def separated (isDigit : Char → Bool) (afterDigit : Bool) : List Char → Bool
  | [] => true
  | ['_'] => false
  | '_' :: c :: rest => afterDigit && isDigit c && separated isDigit true rest
  | c :: rest => separated isDigit (isDigit c) rest

/-- Whether the underscores of a literal stand between digits; a base mark counts as a digit. -/
def separatedLiteral : List Char → Bool
  | '0' :: m :: rest =>
    match m.toLower with
    | 'b' | 'o' => separated Char.isDigit true rest
    | 'x' => separated (fun c => c.isDigit || ('a' ≤ c.toLower && c.toLower ≤ 'f')) true rest
    | _ => separated Char.isDigit true (m :: rest)
  | s => separated Char.isDigit false s

/-- The value of a literal without a sign, which must be below `bound`. -/
def readNat (bound : Nat) (s : List Char) : Except Problem Nat :=
  if s.isEmpty then .error .malformed
  else
    match splitBase s with
    | (base, digits) =>
      match readDigits base bound 0 digits with
      | .error p => .error p
      | .ok n => if separatedLiteral s then .ok n else .error .malformed

/-- The value of a literal that fits into a signed integer of the given number of bits. -/
def readInt (bits : Nat) (s : List Char) : Except Problem Int :=
  match s with
  | '-' :: rest =>
    match readNat (1 <<< bits) rest with
    | .error p => .error p
    | .ok n => if 1 <<< (bits - 1) < n then .error .outOfRange else .ok (-n)
  | '+' :: rest => unsigned rest
  | _ => unsigned s
where
  /-- A literal that is not negative. -/
  unsigned (s : List Char) : Except Problem Int :=
    match readNat (1 <<< bits) s with
    | .error p => .error p
    | .ok n => if 1 <<< (bits - 1) ≤ n then .error .outOfRange else .ok n

end Literal

end BytecodeHost
