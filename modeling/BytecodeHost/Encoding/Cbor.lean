import BytecodeHost.Text

/-!
# Concise binary objects

Items of the binary object format: a writer with shortest heads, a reader that checks that a byte
string is exactly one well-formed item, and readers of the few types that files use. Reading a
type is lenient in the usual ways: null stands for the zero value, tags are looked through, byte
strings may be written as arrays of numbers, and of repeated keys the first counts.

## Main definitions

* `Cbor.encode`, `Cbor.parse?`: items as bytes.
* `Cbor.toInt?`, `Cbor.toBytes?`, `Cbor.toText?`, `Cbor.toEntries?`: items as values.
* `Cbor.field`: the value of a record's numbered field.
-/

namespace BytecodeHost

/-- An item of the binary object format. -/
inductive Cbor where
  /-- A natural number. -/
  | uint (n : Nat)
  /-- The number `-1 - n`. -/
  | negative (n : Nat)
  /-- A byte string. -/
  | bytes (b : ByteArray)
  /-- A text, as the chunks it is written in. -/
  | text (chunks : List ByteArray)
  /-- A list of items. -/
  | array (items : List Cbor)
  /-- Keys and values, in order. -/
  | map (entries : List (Cbor × Cbor))
  /-- An item with a numbered tag. -/
  | tag (number : Nat) (content : Cbor)
  /-- A simple value. -/
  | simple (n : Nat)
  /-- A floating-point number by its bits. -/
  | float (bits : Nat)

namespace Cbor

/-- The null value. -/
def null : Cbor := simple 22

/-- A number of either sign. -/
def ofInt (i : Int) : Cbor :=
  if 0 ≤ i then uint i.toNat else negative (-1 - i).toNat

/-- A text in one chunk. -/
def ofString (s : String) : Cbor :=
  text [s.toUTF8]

/-! ## Writing -/

/-- Appends a number in big-endian order. -/
def pushBE (out : ByteArray) : (width n : Nat) → ByteArray
  | 0, _ => out
  | width + 1, n => pushBE (out.push (n >>> (8 * width)).toUInt8) width n

/-- Appends the shortest head of a major type with an argument. -/
def pushHead (out : ByteArray) (major n : Nat) : ByteArray :=
  let first (info : Nat) : ByteArray := out.push (32 * major + info).toUInt8
  if n < 24 then first n
  else if n < 1 <<< 8 then pushBE (first 24) 1 n
  else if n < 1 <<< 16 then pushBE (first 25) 2 n
  else if n < 1 <<< 32 then pushBE (first 26) 4 n
  else pushBE (first 27) 8 n

/-- The bytes of several chunks. -/
def concat (chunks : List ByteArray) : ByteArray :=
  chunks.foldl (· ++ ·) .empty

mutual

/-- Appends an item. -/
def push (out : ByteArray) : Cbor → ByteArray
  | uint n => pushHead out 0 n
  | negative n => pushHead out 1 n
  | bytes b => pushHead out 2 b.size ++ b
  | text chunks => pushHead out 3 (concat chunks).size ++ concat chunks
  | array items => pushItems (pushHead out 4 items.length) items
  | map entries => pushEntries (pushHead out 5 entries.length) entries
  | tag number content => push (pushHead out 6 number) content
  | simple n => pushHead out 7 n
  | float bits => pushBE (out.push 0xFB) 8 bits

/-- Appends items one after the other. -/
def pushItems (out : ByteArray) : List Cbor → ByteArray
  | [] => out
  | item :: rest => pushItems (push out item) rest

/-- Appends keys and values in turn. -/
def pushEntries (out : ByteArray) : List (Cbor × Cbor) → ByteArray
  | [] => out
  | (k, v) :: rest => pushEntries (push (push out k) v) rest

end

/-- The bytes of an item. -/
def encode (c : Cbor) : ByteArray :=
  push .empty c

/-! ## Reading -/

/-- How deep arrays, maps and tags may be nested. -/
def maxDepth : Nat := 32

/-- How many items an array, or entries a map, may have. -/
def maxItems : Nat := 131072

/-- The head of an item. -/
structure Head where
  /-- The type of the item. -/
  major : Nat
  /-- How the argument is written. -/
  info : Nat
  /-- The argument. -/
  value : Nat

/-- Whether the length of the item is left open. -/
def Head.isOpen (h : Head) : Bool :=
  h.info = 31

/-- `width` bytes from offset `i` on as a big-endian number, if they are there. -/
def readBE? (b : ByteArray) (i width : Nat) : Option Nat :=
  if b.size < i + width then none
  else some ((List.range width).foldl (fun n k => 256 * n + (Bytes.byteAt b (i + k)).toNat) 0)

/-- The head at an offset and where it ends. -/
def readHead? (b : ByteArray) (i : Nat) : Option (Head × Nat) := do
  let first ← readBE? b i 1
  let major := first / 32
  let info := first % 32
  let argument (width : Nat) : Option (Head × Nat) := do
    let value ← readBE? b (i + 1) width
    if major = 7 ∧ info = 24 ∧ value < 32 then none
    else some (⟨major, info, value⟩, i + 1 + width)
  match info with
  | 24 => argument 1
  | 25 => argument 2
  | 26 => argument 4
  | 27 => argument 8
  | 31 => if 2 ≤ major ∧ major ≤ 5 then some (⟨major, 31, 0⟩, i + 1) else none
  | n => if n < 24 then some (⟨major, n, n⟩, i + 1) else none

/-- The chunks of a string of a major type up to the break. -/
def readChunks? (b : ByteArray) (major : Nat) :
    (fuel i : Nat) → List ByteArray → Option (List ByteArray × Nat)
  | 0, _, _ => none
  | fuel + 1, i, chunks => do
    if i < b.size ∧ Bytes.byteAt b i = 0xFF then return (chunks.reverse, i + 1)
    let (h, i) ← readHead? b i
    if h.major ≠ major ∨ h.isOpen ∨ b.size < i + h.value then none
    else readChunks? b major fuel (i + h.value) (b.extract i (i + h.value) :: chunks)

/-- The chunks of a string after its head. -/
def readString? (b : ByteArray) (h : Head) (i : Nat) : Option (List ByteArray × Nat) :=
  if h.isOpen then readChunks? b h.major (b.size + 1) i []
  else if b.size < i + h.value then none
  else some ([b.extract i (i + h.value)], i + h.value)

/-- Items taken two by two. -/
def pairs : List Cbor → List (Cbor × Cbor)
  | k :: v :: rest => (k, v) :: pairs rest
  | _ => []

mutual

/-- The item at an offset and where it ends; `depth` levels may still be opened. -/
def readItem? (b : ByteArray) : (fuel depth i : Nat) → Option (Cbor × Nat)
  | 0, _, _ => none
  | fuel + 1, depth, i => do
    let (h, i) ← readHead? b i
    match h.major with
    | 0 => return (uint h.value, i)
    | 1 => return (negative h.value, i)
    | 2 =>
      let (chunks, i) ← readString? b h i
      return (bytes (concat chunks), i)
    | 3 =>
      let (chunks, i) ← readString? b h i
      return (text chunks, i)
    | 4 =>
      if depth = 0 ∨ maxItems < h.value then none
      let (items, i) ← readItems? b fuel (depth - 1) i (if h.isOpen then none else some h.value) []
      if maxItems < items.length then none
      return (array items, i)
    | 5 =>
      if depth = 0 ∨ maxItems < h.value then none
      let count := if h.isOpen then none else some (2 * h.value)
      let (items, i) ← readItems? b fuel (depth - 1) i count []
      if items.length % 2 = 1 ∨ 2 * maxItems < items.length then none
      return (map (pairs items), i)
    | 6 =>
      let next ← readBE? b i 1
      let nested := next / 32 = 6
      if nested ∧ depth = 0 then none
      let (content, i) ← readItem? b fuel (if nested then depth - 1 else depth) i
      return (tag h.value content, i)
    | _ =>
      if 25 ≤ h.info then return (float h.value, i)
      else return (simple h.value, i)

/-- A given number of items, or the items up to the break. -/
def readItems? (b : ByteArray) : (fuel depth i : Nat) → (count : Option Nat) → List Cbor →
    Option (List Cbor × Nat)
  | 0, _, _, _, _ => none
  | fuel + 1, depth, i, count, items =>
    if count = some 0 then some (items.reverse, i)
    else if count = none ∧ i < b.size ∧ Bytes.byteAt b i = 0xFF then some (items.reverse, i + 1)
    else do
      let (item, i) ← readItem? b fuel depth i
      readItems? b fuel depth i (count.map (· - 1)) (item :: items)

end

/-- The item that a byte string is. -/
def parse? (b : ByteArray) : Option Cbor :=
  match readItem? b (2 * b.size + 2) maxDepth 0 with
  | some (c, i) => if i = b.size then some c else none
  | none => none

/-! ## Items as values -/

/-- Whether the tags with a fixed meaning stand before what they require. -/
def tagFits (number : Nat) (content : Cbor) : Bool :=
  match number, content with
  | 0, text _ => true
  | 0, _ => false
  | 1, uint _ => true
  | 1, negative _ => true
  | 1, float _ => true
  | 1, _ => false
  | 2, bytes _ => true
  | 2, _ => false
  | 3, bytes _ => true
  | 3, _ => false
  | _, _ => true

/-- A byte string as a big-endian number. -/
def natOfBytes (b : ByteArray) : Nat :=
  b.foldl (fun n x => 256 * n + x.toNat) 0

/-- A signed 64-bit number. -/
def toInt? : Cbor → Option Int
  | uint n => if n < 1 <<< 63 then some n else none
  | negative n => if n < 1 <<< 63 then some (-1 - n) else none
  | simple 20 => none
  | simple 21 => none
  | simple 22 => some 0
  | simple 23 => some 0
  | simple n => some n
  | tag 2 (bytes b) => if natOfBytes b < 1 <<< 63 then some (natOfBytes b) else none
  | tag 3 (bytes b) => if natOfBytes b < 1 <<< 63 then some (-1 - natOfBytes b) else none
  | tag n c => if tagFits n c then toInt? c else none
  | _ => none

/-- A number below 256. -/
def toByte? (c : Cbor) : Option UInt8 :=
  match c.toInt? with
  | some (.ofNat n) => if n < 256 then some n.toUInt8 else none
  | _ => none

/-- Numbers below 256 as a byte string. -/
def bytesOfItems? (items : List Cbor) : Option ByteArray :=
  items.foldlM (fun out c => c.toByte?.map out.push) .empty

/-- A byte string of any length; of an array only the first `limit` items count. -/
def toBytesWithin? (limit : Option Nat) : Cbor → Option ByteArray
  | bytes b => some b
  | simple 22 => some .empty
  | simple 23 => some .empty
  | array items => bytesOfItems? (match limit with | some n => items.take n | none => items)
  | tag 2 (bytes b) => some b
  | tag 3 (bytes b) => some b
  | tag n c => if tagFits n c then toBytesWithin? limit c else none
  | _ => none

/-- A byte string. -/
def toBytes? : Cbor → Option ByteArray :=
  toBytesWithin? none

/-- The first `n` bytes of a byte string, filled up with zeros. -/
def fixedSize (n : Nat) (b : ByteArray) : ByteArray :=
  (b ++ Bytes.zeros n).extract 0 n

@[simp] theorem size_fixedSize (n : Nat) (b : ByteArray) : (fixedSize n b).size = n := by
  simp only [fixedSize, ByteArray.size_extract, ByteArray.size_append, Bytes.size_zeros]
  omega

/-- A byte string of a fixed size. -/
def toFixedBytes? (n : Nat) (c : Cbor) : Option ByteArray :=
  (c.toBytesWithin? (some n)).map (fixedSize n)

/-- The string of chunks that are valid each. -/
def stringOfChunks? (chunks : List ByteArray) : Option String :=
  if chunks.all fun b => Text.isValid ⟨b⟩ then String.fromUTF8? (concat chunks) else none

/-- A text. -/
def toText? : Cbor → Option String
  | text chunks => stringOfChunks? chunks
  | simple 22 => some ""
  | simple 23 => some ""
  | tag 2 _ => none
  | tag 3 _ => none
  | tag n c => if tagFits n c then toText? c else none
  | _ => none

/-- Whether a key can be compared with the names of fields: a text, or a number that is not below
the signed 64-bit ones. -/
def isReadableKey : Cbor → Bool
  | uint _ => true
  | negative n => n < 1 <<< 63
  | text chunks => (stringOfChunks? chunks).isSome
  | _ => false

/-- The entries of a map with readable keys. -/
def toEntries? : Cbor → Option (List (Cbor × Cbor))
  | map entries => if entries.all fun e => e.1.isReadableKey then some entries else none
  | simple 22 => some []
  | simple 23 => some []
  | tag 2 _ => none
  | tag 3 _ => none
  | tag n c => if tagFits n c then toEntries? c else none
  | _ => none

/-- Whether a key names a numbered field: the number, or its digits. -/
def isKey (n : Nat) : Cbor → Bool
  | uint k => k = n
  | text chunks => stringOfChunks? chunks = some (toString n)
  | _ => false

/-- The value of a numbered field, null if it is missing. -/
def field (entries : List (Cbor × Cbor)) (n : Nat) : Cbor :=
  match entries.find? fun e => e.1.isKey n with
  | some (_, v) => v
  | none => null

end Cbor

end BytecodeHost
