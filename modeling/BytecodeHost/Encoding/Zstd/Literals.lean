import BytecodeHost.Encoding.Zstd.Huffman

/-!
# Literals

The first section of a compressed block holds the bytes that are not copied from earlier output:
as they are, as one repeated byte, or in a Huffman code. The code may be that of an earlier block.

## Main definitions

* `Zstd.LiteralsHeader.read?`: how the literals are written, and how many there are.
* `Zstd.readLiterals?`: the literals of a block.
-/

namespace BytecodeHost

namespace Zstd

/-- The longest block. -/
def maxBlock : Nat := 131072

/-- How literals are written. -/
inductive LiteralsKind where
  /-- As they are. -/
  | stored
  /-- As one byte that is repeated. -/
  | repeated
  /-- In a Huffman code, with the code before them. -/
  | coded
  /-- In the Huffman code of an earlier block. -/
  | codedAgain
  deriving DecidableEq

/-- What stands before the literals of a block. -/
structure LiteralsHeader where
  kind : LiteralsKind
  /-- The number of literals. -/
  size : Nat
  /-- The number of bytes that they take if they are coded. -/
  codedSize : Nat
  /-- Whether coded literals are in four streams. -/
  inFour : Bool
  /-- The offset after the header. -/
  next : Nat

namespace LiteralsHeader

/-- The header at the start of a block. -/
def read (b : ByteArray) : LiteralsHeader :=
  let plain (kind : LiteralsKind) : LiteralsHeader :=
    match Bits.peek b 2 2 with
    | 1 => ⟨kind, Bits.peek b 4 12, 0, false, 2⟩
    | 3 => ⟨kind, Bits.peek b 4 20, 0, false, 3⟩
    | _ => ⟨kind, Bits.peek b 3 5, 0, false, 1⟩
  let coded (kind : LiteralsKind) : LiteralsHeader :=
    match Bits.peek b 2 2 with
    | 0 => ⟨kind, Bits.peek b 4 10, Bits.peek b 14 10, false, 3⟩
    | 1 => ⟨kind, Bits.peek b 4 10, Bits.peek b 14 10, true, 3⟩
    | 2 => ⟨kind, Bits.peek b 4 14, Bits.peek b 18 14, true, 4⟩
    | _ => ⟨kind, Bits.peek b 4 18, Bits.peek b 22 18, true, 5⟩
  match Bits.peek b 0 2 with
  | 0 => plain .stored
  | 1 => plain .repeated
  | 2 => coded .coded
  | _ => coded .codedAgain

/-- The header at the start of a block, if it is complete and the literals are no more than a block
and the window may hold. -/
def read? (b : ByteArray) (window : Nat) : Option LiteralsHeader :=
  let h := read b
  if b.size < 2 ∨ b.size < h.next ∨ window < h.size ∨ maxBlock < h.size then none else some h

end LiteralsHeader

/-- The literals of a block, the Huffman code for the blocks after it, and the offset after the
literals. -/
def readLiterals? (b : ByteArray) (window : Nat) (table : Option HuffmanTable) :
    Option (ByteArray × Option HuffmanTable × Nat) := do
  let h ← LiteralsHeader.read? b window
  let decode (t : HuffmanTable) (stream : ByteArray) : Option ByteArray :=
    if h.inFour then t.decodeFour? stream h.size else t.decode? stream h.size
  let stop := h.next + match h.kind with
    | .stored => h.size
    | .repeated => 1
    | _ => h.codedSize
  if b.size < stop then none
  let section₁ := b.extract h.next stop
  match h.kind with
  | .stored => return (section₁, table, stop)
  | .repeated => return (Bytes.fill (Bytes.byteAt b h.next) h.size, table, stop)
  | .coded =>
    let (t, i) ← HuffmanTable.read? section₁
    return (← decode t (section₁.extract i section₁.size), some t, stop)
  | .codedAgain => return (← decode (← table) section₁, table, stop)

end Zstd

end BytecodeHost
