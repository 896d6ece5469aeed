import BytecodeHost.Encoding.Bits

/-!
# Finite-state codes

A finite-state code gives every symbol a share of the cells of a table. A decoder is always in one
cell: the cell tells the symbol, and how many bits to read to get to the next cell. Symbols with
many cells need few bits.

A written code is a list of shares, each in as many bits as the number of cells that are still to
be given away asks for. Shares of nothing are followed by the number of further ones.

## Main definitions

* `Zstd.Distribution`: the shares of symbols, and `Zstd.Distribution.read?`.
* `Zstd.StateTable`: the table that a distribution stands for.
-/

namespace BytecodeHost

namespace Zstd

/-- How many cells a symbol has. -/
inductive Share where
  /-- One cell, at the end of the table. -/
  | rare
  /-- Some cells all over the table. -/
  | cells (n : Nat)
  deriving DecidableEq

/-- The number of cells. -/
def Share.size : Share → Nat
  | rare => 1
  | cells n => n

/-- The shares of symbols, the first of which is symbol zero. -/
structure Distribution where
  /-- The logarithm of the number of cells. -/
  log : Nat
  /-- The shares. -/
  shares : List Share

namespace Distribution

/-- The least logarithm that can be written. -/
def minLog : Nat := 5

/-- A written share and its width, when `left` cells are still to be given away. Small numbers are
one bit shorter as long as there are too few numbers for all bit patterns. -/
def readShare (b : ByteArray) (pos left : Nat) : Nat × Nat :=
  let width := (left + 1).log2
  let short := 2 * 1 <<< width - 2 - left
  let low := Bits.peek b pos width
  if low < short then (low, width)
  else
    let n := Bits.peek b pos (width + 1)
    (if n < 1 <<< width then n else n - short, width + 1)

/-- The number of further empty shares, added to `n`, and the position after it. Every three of
them are a pair of ones, and another pair ends the number. -/
def readEmpty (b : ByteArray) : (fuel pos n : Nat) → Nat × Nat
  | 0, pos, n => (n, pos)
  | fuel + 1, pos, n =>
    match Bits.peek b pos 2 with
    | 3 => readEmpty b fuel (pos + 2) (n + 3)
    | k => (n + k, pos + 2)

/-- Reads shares until all cells are given away, and returns them with the position after them;
`reversed` are the shares so far. -/
def readShares? (b : ByteArray) (maxSymbol : Nat) :
    (fuel pos left : Nat) → (reversed : List Share) → Option (List Share × Nat)
  | 0, _, _, _ => none
  | fuel + 1, pos, left, reversed =>
    if left = 0 then
      if reversed.length < 2 ∨ 8 * b.size < pos then none else some (reversed.reverse, pos)
    else if maxSymbol < reversed.length then none
    else
      let (n, width) := readShare b pos left
      match n with
      | 0 => readShares? b maxSymbol fuel (pos + width) (left - 1) (.rare :: reversed)
      | 1 =>
        let (further, pos) := readEmpty b (maxSymbol + 1) (pos + width) 0
        readShares? b maxSymbol fuel pos left (List.replicate (further + 1) (.cells 0) ++ reversed)
      | n + 2 =>
        readShares? b maxSymbol fuel (pos + width) (left - (n + 1)) (.cells (n + 1) :: reversed)

/-- Reads a distribution at offset `i`, and returns it with the offset after it. At least four bytes
have to be there. -/
def read? (b : ByteArray) (i maxLog maxSymbol : Nat) : Option (Distribution × Nat) := do
  if b.size < i + 4 then none
  let log := Bits.peek b (8 * i) 4 + minLog
  if maxLog < log then none
  let (shares, pos) ← readShares? b maxSymbol (maxSymbol + 2) (8 * i + 4) (1 <<< log) []
  return (⟨log, shares⟩, (pos + 7) / 8)

/-- The cells of the symbols that are not rare, in the order in which they are dealt out. -/
def dealt (d : Distribution) : List Nat :=
  d.shares.zipIdx.flatMap fun
    | (.cells n, symbol) => List.replicate n symbol
    | (.rare, _) => []

/-- The rare symbols. -/
def rare (d : Distribution) : List Nat :=
  d.shares.zipIdx.filterMap fun
    | (.rare, symbol) => some symbol
    | _ => none

/-- The cells before those of the rare symbols, in the order in which they are taken: every step
goes on by somewhat more than five eighths of the table. -/
def places (d : Distribution) : List Nat :=
  let size := 1 <<< d.log
  let step := size / 2 + size / 8 + 3
  ((List.range size).map (· * step % size)).filter (· < size - d.rare.length)

/-- The symbol of each cell. -/
def symbols (d : Distribution) : Array Nat :=
  let size := 1 <<< d.log
  let common := (d.places.zip d.dealt).foldl (fun a (place, symbol) => a.setIfInBounds place symbol)
    (Array.replicate size 0)
  d.rare.zipIdx.foldl (fun a (symbol, k) => a.setIfInBounds (size - 1 - k) symbol) common

end Distribution

/-- A cell of a table. -/
structure Cell where
  symbol : Nat
  /-- How many bits to read for the next cell. -/
  width : Nat
  /-- The next cell if they are all zero. -/
  base : Nat
  deriving Inhabited

/-- A finite-state code as a table. -/
structure StateTable where
  /-- The logarithm of the number of cells. -/
  log : Nat
  /-- The cells. -/
  cells : Array Cell

namespace StateTable

/-- The cell at an index. -/
def cell (t : StateTable) (i : Nat) : Cell :=
  t.cells.getD i default

/-- The table of a symbol that is always meant. -/
def always (symbol : Nat) : StateTable :=
  ⟨0, #[⟨symbol, 0, 0⟩]⟩

/-- The table of a distribution. The cells of a symbol that has `n` of them are numbered from `n`
on, and a cell reads so many bits that its number becomes as long as the numbers of all cells. -/
def ofDistribution (d : Distribution) : StateTable :=
  let first := (d.shares.map Share.size).toArray
  let step (acc : Array Nat × Array Cell) (symbol : Nat) : Array Nat × Array Cell :=
    let number := acc.1.getD symbol 1
    let width := d.log - number.log2
    (acc.1.setIfInBounds symbol (number + 1),
      acc.2.push ⟨symbol, width, number <<< width - 1 <<< d.log⟩)
  ⟨d.log, (d.symbols.foldl step (first, #[])).2⟩

/-- The table of a written distribution. No symbol may have all cells, because nothing would have to
be read for it. -/
def ofDistribution? (d : Distribution) : Option StateTable :=
  if d.shares.contains (.cells (1 <<< d.log)) then none else some (ofDistribution d)

/-- Symbols from two states in turn, until a state needs bits and none is left; `reversed` are the
symbols so far. -/
def readAlternating? (t : StateTable) :
    (fuel state other : Nat) → BitTail → (reversed : List Nat) → Option (List Nat)
  | 0, _, _, _, _ => none
  | fuel + 1, state, other, bits, reversed =>
    let cell := t.cell state
    if bits.left = 0 ∧ 0 < cell.width then
      some ((t.cell other).symbol :: cell.symbol :: reversed).reverse
    else
      match bits.take? cell.width with
      | none => none
      | some (n, bits) =>
        readAlternating? t fuel other (cell.base + n) bits (cell.symbol :: reversed)

/-- The symbols in a byte string that was written with two states, at most `limit` of them. -/
def readSymbols? (t : StateTable) (limit : Nat) (b : ByteArray) : Option (List Nat) := do
  let bits ← BitTail.ofBytes? b
  let (state, bits) ← bits.takeOrZero? t.log
  let (other, bits) ← bits.takeOrZero? t.log
  let symbols ← readAlternating? t (limit + 1) state other bits []
  if limit < symbols.length then none else some symbols

end StateTable

end Zstd

end BytecodeHost
