import BytecodeHost.Encoding.Zstd.Literals

/-!
# Sequences

The second section of a compressed block says how literals and earlier output are put together. A
sequence takes some literals and then copies some bytes that stand a given distance back in the
output; the literals that no sequence takes come last.

Lengths and distances are codes with extra bits, and each of the three codes is a finite-state code
of its own. A distance of one to three is no distance but means one of the last three, which are
kept from sequence to sequence and from block to block.

## Main definitions

* `Zstd.Recent.resolve`: the distance that a written one means.
* `Zstd.copyBack`: the copy from earlier output.
* `Zstd.Tables.read?`: the codes of a block.
* `Zstd.readSequences?`: the output of a block.
-/

namespace BytecodeHost

namespace Zstd

/-! ## Codes -/

/-- What a code stands for: the least number, and how many bits say what is added to it. -/
structure Range where
  base : Nat
  width : Nat
  deriving Inhabited

/-- Adjoining ranges of given widths. -/
def ranges : (base : Nat) → (widths : List Nat) → List Range
  | _, [] => []
  | base, width :: rest => ⟨base, width⟩ :: ranges (base + 1 <<< width) rest

/-- A kind of code: its ranges, and the distribution that is meant if none is written. -/
structure Code where
  ranges : Array Range
  standard : Distribution

/-- The greatest symbol of a code. -/
def Code.maxSymbol (c : Code) : Nat :=
  c.ranges.size - 1

/-- Shares in a row; a rare one is written as -1. -/
def sharesOf (counts : List Int) : List Share :=
  counts.map fun n => if n < 0 then .rare else .cells n.toNat

/-- The numbers of literals. -/
def literalLengths : Code where
  ranges := (ranges 0 (List.replicate 16 0 ++
    [1, 1, 1, 1, 2, 2, 3, 3, 4, 6, 7, 8, 9, 10, 11, 12, 13, 14, 15, 16])).toArray
  standard := ⟨6, sharesOf
    [4, 3, 2, 2, 2, 2, 2, 2, 2, 2, 2, 2, 2, 1, 1, 1, 2, 2, 2, 2, 2, 2, 2, 2, 2, 3, 2, 1, 1, 1, 1, 1,
     -1, -1, -1, -1]⟩

/-- The numbers of copied bytes. -/
def matchLengths : Code where
  ranges := (ranges 3 (List.replicate 32 0 ++
    [1, 1, 1, 1, 2, 2, 3, 3, 4, 4, 5, 7, 8, 9, 10, 11, 12, 13, 14, 15, 16])).toArray
  standard := ⟨6, sharesOf
    [1, 4, 3, 2, 2, 2, 2, 2, 2, 1, 1, 1, 1, 1, 1, 1, 1, 1, 1, 1, 1, 1, 1, 1, 1, 1, 1, 1, 1, 1, 1, 1,
     1, 1, 1, 1, 1, 1, 1, 1, 1, 1, 1, 1, 1, 1, -1, -1, -1, -1, -1, -1, -1]⟩

/-- The written distances. -/
def distances : Code where
  ranges := (ranges 1 (List.range 31)).toArray
  standard := ⟨5, sharesOf
    [1, 1, 1, 1, 1, 1, 2, 2, 2, 1, 1, 1, 1, 1, 1, 1, 1, 1, 1, 1, 1, 1, 1, 1, -1, -1, -1, -1, -1]⟩

/-- The greatest logarithm of a finite-state code of a block. -/
def maxCodeLog : Nat := 9

/-- The code that is chosen by `mode` at offset `i`, and the offset after it: the standard one, a
single symbol, a written one, or that of an earlier block. -/
def Code.read? (c : Code) (previous : Option StateTable) (b : ByteArray) (mode i : Nat) :
    Option (StateTable × Nat) :=
  match mode with
  | 0 => some (StateTable.ofDistribution c.standard, i)
  | 1 =>
    let symbol := (Bytes.byteAt b i).toNat
    if b.size ≤ i ∨ c.maxSymbol < symbol then none else some (StateTable.always symbol, i + 1)
  | 2 => do
    let (d, i) ← Distribution.read? b i maxCodeLog c.maxSymbol
    return (← StateTable.ofDistribution? d, i)
  | _ => previous.map (·, i)

/-- The codes of a block. -/
structure Tables where
  literals : Option StateTable := none
  distances : Option StateTable := none
  copies : Option StateTable := none

/-- The codes at offset `i` of a block, and the offset after them. -/
def Tables.read? (previous : Tables) (b : ByteArray) (i : Nat) : Option (Tables × Nat) := do
  if b.size ≤ i ∨ Bits.peek b (8 * i) 2 ≠ 0 then none
  let mode (k : Nat) : Nat := Bits.peek b (8 * i + k) 2
  let (l, next) ← literalLengths.read? previous.literals b (mode 6) (i + 1)
  let (d, next) ← Zstd.distances.read? previous.distances b (mode 4) next
  let (c, next) ← matchLengths.read? previous.copies b (mode 2) next
  return (⟨some l, some d, some c⟩, next)

/-! ## Distances -/

/-- The last three distances, the latest first. -/
structure Recent where
  first : Nat := 1
  second : Nat := 4
  third : Nat := 8

/-- The distance that a written one means, and the last three after it. Numbers above three are
distances plus three. Without literals the recent ones are counted from the second on, and the
fourth is one less than the first. -/
def Recent.resolve (r : Recent) (written literals : Nat) : Nat × Recent :=
  if 3 < written then (written - 3, ⟨written - 3, r.first, r.second⟩)
  else
    match if literals = 0 then written + 1 else written with
    | 1 => (r.first, r)
    | 2 => (r.second, ⟨r.second, r.first, r.third⟩)
    | 3 => (r.third, ⟨r.third, r.first, r.second⟩)
    | _ =>
      let d := max 1 (r.first - 1)
      (d, ⟨d, r.first, r.second⟩)

/-! ## Output -/

/-- Appends `n` bytes, each of which is the one that stands `distance` back. -/
def copyBack (distance : Nat) : (n : Nat) → (out : ByteArray) → ByteArray
  | 0, out => out
  | n + 1, out => copyBack distance n (out.push (Bytes.byteAt out (out.size - distance)))

/-- What sequences of a block have to keep to. -/
structure Bounds where
  /-- Where the output of the frame starts. -/
  frameStart : Nat
  /-- Where the output of the block starts. -/
  blockStart : Nat
  /-- How far back bytes may be copied from. -/
  window : Nat

/-- The greatest size of the output so far. -/
def Bounds.maxSize (b : Bounds) : Nat :=
  b.blockStart + min maxBlock b.window

/-- Where the three finite-state codes are. -/
structure States where
  literals : Nat
  distances : Nat
  copies : Nat

/-- A sequence. -/
structure Sequence where
  /-- The number of literals. -/
  literals : Nat
  /-- The distance as it is written. -/
  distance : Nat
  /-- The number of copied bytes. -/
  copied : Nat

/-- The tables of a block, all of them known. -/
structure Decoder where
  literals : StateTable
  distances : StateTable
  copies : StateTable

namespace Decoder

/-- The states that a block starts with. -/
def start? (t : Decoder) (bits : BitTail) : Option (States × BitTail) := do
  let (literals, bits) ← bits.take? t.literals.log
  let (distances, bits) ← bits.take? t.distances.log
  let (copies, bits) ← bits.take? t.copies.log
  return (⟨literals, distances, copies⟩, bits)

/-- A number of a code at a state. -/
def number? (c : Code) (t : StateTable) (state : Nat) (bits : BitTail) :
    Option (Nat × BitTail) :=
  let range := c.ranges.getD (t.cell state).symbol default
  (bits.take? range.width).map fun (n, bits) => (range.base + n, bits)

/-- The sequence at the states. -/
def sequence? (t : Decoder) (s : States) (bits : BitTail) : Option (Sequence × BitTail) := do
  let (distance, bits) ← number? Zstd.distances t.distances s.distances bits
  let (copied, bits) ← number? matchLengths t.copies s.copies bits
  let (literals, bits) ← number? literalLengths t.literals s.literals bits
  return (⟨literals, distance, copied⟩, bits)

/-- The next state of a table. -/
def advance? (t : StateTable) (state : Nat) (bits : BitTail) : Option (Nat × BitTail) :=
  let cell := t.cell state
  (bits.take? cell.width).map fun (n, bits) => (cell.base + n, bits)

/-- The next states. -/
def next? (t : Decoder) (s : States) (bits : BitTail) : Option (States × BitTail) := do
  let (literals, bits) ← advance? t.literals s.literals bits
  let (copies, bits) ← advance? t.copies s.copies bits
  let (distances, bits) ← advance? t.distances s.distances bits
  return (⟨literals, distances, copies⟩, bits)

/-- Carries out `n + 1` sequences that take all bits that are left, and appends the literals that
they leave; `used` literals are used already. -/
def run? (t : Decoder) (bounds : Bounds) (literals : ByteArray) :
    (n : Nat) → States → BitTail → Recent → (used : Nat) → (out : ByteArray) →
    Option (ByteArray × Recent)
  | n, states, bits, recent, used, out => do
    let (q, bits) ← t.sequence? states bits
    let (distance, recent) := recent.resolve q.distance q.literals
    let upTo := used + q.literals
    if literals.size < upTo ∨ bounds.maxSize < out.size + q.literals + q.copied then none
    if out.size + q.literals - bounds.frameStart < distance ∨ bounds.window < distance then none
    let out := copyBack distance q.copied (out ++ literals.extract used upTo)
    match n with
    | 0 =>
      let out := out ++ literals.extract upTo literals.size
      if bits.left ≠ 0 ∨ bounds.maxSize < out.size then none else some (out, recent)
    | n + 1 =>
      let (states, bits) ← t.next? states bits
      run? t bounds literals n states bits recent upTo out

end Decoder

/-- The number of sequences at offset `i`, and the offset after it. -/
def readCount? (b : ByteArray) (i : Nat) : Option (Nat × Nat) :=
  let byte (k : Nat) : Nat := (Bytes.byteAt b (i + k)).toNat
  let first := byte 0
  let (count, next) :=
    if first < 128 then (first, i + 1)
    else if first < 255 then (256 * (first - 128) + byte 1, i + 2)
    else (0x7F00 + byte 1 + 256 * byte 2, i + 3)
  if b.size < next then none else some (count, next)

/-- Appends the output of a block whose sequences start at offset `i`. -/
def readSequences? (b : ByteArray) (i : Nat) (previous : Tables) (recent : Recent)
    (bounds : Bounds) (literals out : ByteArray) : Option (ByteArray × Tables × Recent) := do
  let (count, next) ← readCount? b i
  match count with
  | 0 => if next = b.size then some (out ++ literals, previous, recent) else none
  | n + 1 =>
    let (tables, next) ← previous.read? b next
    let decoder : Decoder := ⟨← tables.literals, ← tables.distances, ← tables.copies⟩
    let bits ← BitTail.ofBytes? (b.extract next b.size)
    let (states, bits) ← decoder.start? bits
    let (out, recent) ← decoder.run? bounds literals n states bits recent 0 out
    return (out, tables, recent)

end Zstd

end BytecodeHost
