import BytecodeHost.Encoding.Zstd.StateTable

/-!
# Huffman codes of bytes

A Huffman code is given by weights, one for each byte value from zero on: a symbol of weight `w`
takes `2 ^ (w - 1)` cells of a table, a symbol of weight zero none. The weight of the last symbol is
not written, since it is what is left to the next power of two. A decoder looks at as many bits as
the logarithm of the table says, and moves on by the width of the cell that they name.

## Main definitions

* `Zstd.HuffmanTable.read?`: a written code.
* `Zstd.HuffmanTable.decode?`: bytes in one stream, and `Zstd.HuffmanTable.decodeFour?` in four.
-/

namespace BytecodeHost

namespace Zstd

/-- A cell of a table. -/
structure HuffmanCell where
  symbol : UInt8
  /-- How many bits the symbol takes. -/
  width : Nat
  deriving Inhabited

/-- A Huffman code as a table. -/
structure HuffmanTable where
  /-- The logarithm of the number of cells. -/
  log : Nat
  /-- The cells. -/
  cells : Array HuffmanCell

namespace HuffmanTable

/-- The greatest logarithm. -/
def maxLog : Nat := 11

/-- The greatest number of written weights. -/
def maxWeights : Nat := 255

/-- The greatest logarithm of a finite-state code of weights. -/
def maxWeightLog : Nat := 15

/-- The number of cells that a weight takes. -/
def share (weight : Nat) : Nat :=
  1 <<< weight / 2

/-- The cells of all symbols: small weights first, and within a weight in the order of symbols. -/
def cellsOf (log : Nat) (weights : List Nat) : List HuffmanCell :=
  (List.range log).flatMap fun k =>
    let weight := k + 1
    weights.zipIdx.flatMap fun (w, symbol) =>
      if w = weight then List.replicate (share w) ⟨symbol.toUInt8, log + 1 - w⟩ else []

/-- The code of written weights, to which the last one is added. At least two symbols have the
longest code, and their number is even. -/
def ofWeights? (weights : List Nat) : Option HuffmanTable :=
  let total := weights.foldl (fun total weight => total + share weight) 0
  let log := total.log2 + 1
  let rest := 1 <<< log - total
  let all := weights ++ [rest.log2 + 1]
  let longest := all.count 1
  if weights.any (maxLog < ·) ∨ total = 0 ∨ maxLog < log ∨ 1 <<< rest.log2 ≠ rest then none
  else if longest < 2 ∨ longest % 2 = 1 then none
  else some ⟨log, (cellsOf log all).toArray⟩

/-- Weights that are written as they are, two in a byte, the first in the high half. -/
def directWeights (b : ByteArray) (n : Nat) : List Nat :=
  (List.range n).map fun k =>
    let byte := (Bytes.byteAt b (1 + k / 2)).toNat
    if k % 2 = 0 then byte / 16 else byte % 16

/-- Weights that are written in a finite-state code. -/
def codedWeights? (b : ByteArray) : Option (List Nat) := do
  let (d, i) ← Distribution.read? b 0 maxWeightLog maxWeights
  let t ← StateTable.ofDistribution? d
  t.readSymbols? maxWeights (b.extract i b.size)

/-- The code at the start of a byte string, and the offset after it. -/
def read? (b : ByteArray) : Option (HuffmanTable × Nat) := do
  if b.size < 2 then none
  let first := (Bytes.byteAt b 0).toNat
  let count := first - 127
  let length := if first < 128 then first else (count + 1) / 2
  if b.size < 1 + length then none
  let weights ←
    if first < 128 then codedWeights? (b.extract 1 (1 + length)) else some (directWeights b count)
  let t ← ofWeights? weights
  return (t, 1 + length)

/-- Appends `n` symbols that take all bits that are left. -/
def decodeBits? (t : HuffmanTable) : (n : Nat) → BitTail → (out : ByteArray) → Option ByteArray
  | 0, bits, out => if bits.left = 0 then some out else none
  | n + 1, bits, out =>
    let cell := t.cells.getD (bits.peek t.log) default
    match bits.drop? cell.width with
    | none => none
    | some bits => decodeBits? t n bits (out.push cell.symbol)

/-- Appends the `n` symbols that a byte string holds. -/
def decodeStream? (t : HuffmanTable) (b : ByteArray) (n : Nat) (out : ByteArray) :
    Option ByteArray :=
  (BitTail.ofBytes? b).bind fun bits => decodeBits? t n bits out

/-- The `n` symbols of a single stream, which is not used for one to three symbols. -/
def decode? (t : HuffmanTable) (b : ByteArray) (n : Nat) : Option ByteArray :=
  if 0 < n ∧ n < 4 then none else decodeStream? t b n .empty

/-- The `n` symbols of four streams. The lengths of the first three stand before them, and all but
the last have the same number of symbols. -/
def decodeFour? (t : HuffmanTable) (b : ByteArray) (n : Nat) : Option ByteArray := do
  let each := (n + 3) / 4
  let length₁ := Bits.peek b 0 16
  let length₂ := Bits.peek b 16 16
  let length₃ := Bits.peek b 32 16
  let start₂ := 6 + length₁
  let start₃ := start₂ + length₂
  let start₄ := start₃ + length₃
  if b.size < 10 ∨ b.size ≤ start₄ ∨ n < 3 * each then none
  let out ← t.decodeStream? (b.extract 6 start₂) each .empty
  let out ← t.decodeStream? (b.extract start₂ start₃) each out
  let out ← t.decodeStream? (b.extract start₃ start₄) each out
  t.decodeStream? (b.extract start₄ b.size) (n - 3 * each) out

end HuffmanTable

end Zstd

end BytecodeHost
