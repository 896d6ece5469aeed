import BytecodeHost.Number.Binary64
import BytecodeHost.Table

/-!
# JSON values

Values as they are written: numbers keep their decimal digits and objects keep their members in
order, repeated names included. What repeated names and other spellings mean is decided where a
value is read as a record: members are read in order over what was read before, so the last one
counts, null leaves text and numbers as they were, and names match up to letter case.

## Main definitions

* `JsonValue`: a value.
* `JsonValue.rounded?`: a value as it is kept when nothing is known of its type.
* `JsonValue.readText?`, `JsonValue.readInt?`, `JsonValue.readNat?`: members of records.
-/

namespace BytecodeHost

/-- A number as it is written. -/
structure JsonNumber where
  /-- Its value. -/
  value : Decimal
  /-- Whether it has neither a fraction nor an exponent. -/
  isPlain : Bool := true
  deriving DecidableEq

/-- A JSON value. -/
inductive JsonValue where
  | null
  | bool (b : Bool)
  | number (n : JsonNumber)
  | string (s : String)
  | array (items : List JsonValue)
  | object (members : List (String × JsonValue))

namespace JsonValue

instance : Inhabited JsonValue := ⟨null⟩

/-- An integer. -/
def ofInt (i : Int) : JsonValue :=
  number ⟨.ofInt i, true⟩

/-- A natural number. -/
def ofNat (n : Nat) : JsonValue :=
  ofInt n

/-! ## Values of unknown type -/

/-- Members by name, the last of each name, in the order of their names. -/
def normalMembers (members : List (String × JsonValue)) : List (String × JsonValue) :=
  let table : Table String JsonValue := members.foldl (fun t m => t.insert m.1 m.2) .empty
  table.entries.mergeSort fun a b => a.1 ≤ b.1

mutual

/-- A value with its numbers rounded to double precision and its objects in normal form; there is
none if a number is too large. -/
def rounded? : JsonValue → Option JsonValue
  | number n => (Binary64.ofDecimal? n.value).map fun x => number ⟨x.shortest, true⟩
  | array items => (roundedItems? items).map array
  | object members => (roundedMembers? members).map fun ms => object (normalMembers ms)
  | v => some v

/-- Rounds the items of an array. -/
def roundedItems? : List JsonValue → Option (List JsonValue)
  | [] => some []
  | v :: rest => do
    let v ← rounded? v
    let rest ← roundedItems? rest
    return v :: rest

/-- Rounds the members of an object. -/
def roundedMembers? : List (String × JsonValue) → Option (List (String × JsonValue))
  | [] => some []
  | (name, v) :: rest => do
    let v ← rounded? v
    let rest ← roundedMembers? rest
    return (name, v) :: rest

end

/-! ## Members of records -/

/-- Reads text over an earlier text. -/
def readText? (current : String) : JsonValue → Option String
  | string s => some s
  | null => some current
  | _ => none

/-- Reads an integer in a range over an earlier one. -/
def readInt? (low high : Int) (current : Int) : JsonValue → Option Int
  | number n =>
    let i : Int := if n.value.negative then -n.value.digits else n.value.digits
    if n.isPlain ∧ low ≤ i ∧ i ≤ high then some i else none
  | null => some current
  | _ => none

/-- Reads a natural number up to a bound; null stands for none. -/
def readNat? (high : Nat) : JsonValue → Option (Option Nat)
  | number n =>
    if n.isPlain ∧ ¬ n.value.negative ∧ n.value.digits ≤ high then some (some n.value.digits)
    else none
  | null => some none
  | _ => none

/-- The items of an array; null stands for none. -/
def toItems? : JsonValue → Option (List JsonValue)
  | array items => some items
  | null => some []
  | _ => none

/-- The members of an object; null stands for none. -/
def toMembers? : JsonValue → Option (List (String × JsonValue))
  | object members => some members
  | null => some []
  | _ => none

end JsonValue

end BytecodeHost
