import Mathlib.Algebra.Ring.Int.Defs
import Mathlib.Algebra.Ring.Nat
import BytecodeHost.Bytes

/-!
# Checked accesses

The library's own definitions are total: a read past the end of a byte string gives zero, and sums
of words wrap. That leaves open whether such a read or such a sum ever happens. The functions here
do the same accesses and stop with a `Violation` where one of them would be out of range. Loading
and execution are written once more over them, and proving the two versions equal proves that no
violation occurs.

## Main definitions

* `Violation` — an access out of range, a sum that does not fit, a division by zero
* `Checked.get`, `Checked.set`, `Checked.take`, `Checked.range`, `Checked.signed` — the checks
-/

namespace BytecodeHost

/-- What a checked access can stop with. -/
inductive Violation where
  /-- An element past the end of an array. -/
  | index (i size : Nat)
  /-- A range that does not lie in a byte string. -/
  | range (start stop : Int) (size : Nat)
  /-- A number that a signed word cannot hold. -/
  | overflow (n : Int)
  /-- A division by zero. -/
  | divisor
  deriving DecidableEq

namespace Checked

variable {α : Type}

/-- An element of an array. -/
def get (xs : Array α) (i : Nat) : Except Violation α :=
  match xs[i]? with
  | some x => .ok x
  | none => .error (.index i xs.size)

/-- An array with another element. -/
def set (xs : Array α) (i : Nat) (x : α) : Except Violation (Array α) :=
  if h : i < xs.size then .ok (xs.set i x h) else .error (.index i xs.size)

/-- The first `n` elements of an array. -/
def take (xs : Array α) (n : Nat) : Except Violation (Array α) :=
  if n ≤ xs.size then .ok (xs.take n) else .error (.index n xs.size)

/-- A range lies in a byte string. -/
def range (b : ByteArray) (start stop : Int) : Except Violation Unit :=
  if 0 ≤ start ∧ start ≤ stop ∧ stop ≤ b.size then .ok ()
  else .error (.range start stop b.size)

/-- A signed word can hold a number. -/
def signed (n : Int) : Except Violation Unit :=
  if -2 ^ 31 ≤ n ∧ n < 2 ^ 31 then .ok () else .error (.overflow n)

/-- The byte at an offset. -/
def byteAt (b : ByteArray) (i : Nat) : Except Violation UInt8 := do
  range b i (i + 1)
  return Bytes.byteAt b i

/-- The little-endian word at an offset. -/
def wordAt (b : ByteArray) (i : Nat) : Except Violation UInt32 := do
  range b i (i + 4)
  return Bytes.wordAt b i

/-- A byte string with another word at an offset, little-endian. -/
def setWord (b : ByteArray) (i : Nat) (w : UInt32) : Except Violation ByteArray :=
  if h : i + 4 ≤ b.size then .ok (Bytes.setWord b i w h) else .error (.range i (i + 4) b.size)

/-- A check that passes is passed over. -/
@[simp] theorem ok_bind {β : Type} (x : α) (f : α → Except Violation β) :
    (Except.ok x >>= f) = f x := rfl

theorem get_eq_ok {xs : Array α} {i : Nat} {x : α} (h : xs[i]? = some x) : get xs i = .ok x := by
  rw [get, h]

theorem set_eq_ok {xs : Array α} {i : Nat} (x : α) (h : i < xs.size) :
    set xs i x = .ok (xs.set i x h) :=
  dif_pos h

theorem take_eq_ok {xs : Array α} {n : Nat} (h : n ≤ xs.size) : take xs n = .ok (xs.take n) :=
  if_pos h

theorem range_eq_ok {b : ByteArray} {start stop : Int} (h₀ : 0 ≤ start) (h₁ : start ≤ stop)
    (h₂ : stop ≤ b.size) : range b start stop = .ok () :=
  if_pos ⟨h₀, h₁, h₂⟩

theorem signed_eq_ok {n : Int} (h₀ : -2 ^ 31 ≤ n) (h₁ : n < 2 ^ 31) : signed n = .ok () :=
  if_pos ⟨h₀, h₁⟩

theorem byteAt_eq_ok {b : ByteArray} {i : Nat} (h : i < b.size) :
    byteAt b i = .ok (Bytes.byteAt b i) := by
  rw [byteAt, range_eq_ok (by omega) (by omega) (by omega)]
  rfl

theorem wordAt_eq_ok {b : ByteArray} {i : Nat} (h : i + 4 ≤ b.size) :
    wordAt b i = .ok (Bytes.wordAt b i) := by
  rw [wordAt, range_eq_ok (by omega) (by omega) (by omega)]
  rfl

theorem setWord_eq_ok {b : ByteArray} {i : Nat} (w : UInt32) (h : i + 4 ≤ b.size) :
    setWord b i w = .ok (Bytes.setWord b i w h) :=
  dif_pos h

end Checked

end BytecodeHost
