import BytecodeHost.Bytes

/-!
# BLAKE3

The 32-byte BLAKE3 digest of a byte string. The input is cut into chunks of 1024 bytes, each a
chain of 64-byte blocks; the chunks are the leaves of a binary tree whose left subtrees are full.
A `Node` is a compression that is still to be done, because only the last one is done as the root.

## Main definitions

* `Blake3.compress`: the compression function.
* `Blake3.chunk`: the last compression of a chunk.
* `Blake3.digest`: the digest.
-/

namespace BytecodeHost

namespace Blake3

/-- Eight words that chain compressions. -/
abbrev Chain : Type := Vector UInt32 8

/-- Sixteen words: a message block, or the state of a compression. -/
abbrev Block : Type := Vector UInt32 16

/-- The chain that every chunk and every parent starts with. -/
def start : Chain :=
  #v[0x6A09E667, 0xBB67AE85, 0x3C6EF372, 0xA54FF53A,
     0x510E527F, 0x9B05688C, 0x1F83D9AB, 0x5BE0CD19]

/-- A word rotated right. -/
@[inline] def rotate (w k : UInt32) : UInt32 :=
  (w >>> k) ||| (w <<< (32 - k))

/-- Mixes two message words into four words of the state. -/
@[inline] def mix (v : Block) (a b c d : Fin 16) (x y : UInt32) : Block :=
  let va := v[a] + v[b] + x
  let vd := rotate (v[d] ^^^ va) 16
  let vc := v[c] + vd
  let vb := rotate (v[b] ^^^ vc) 12
  let va := va + vb + y
  let vd := rotate (vd ^^^ va) 8
  let vc := vc + vd
  let vb := rotate (vb ^^^ vc) 7
  (((v.set a va).set b vb).set c vc).set d vd

/-- Mixes a message block into the state: columns, then diagonals. -/
def mixBlock (v m : Block) : Block :=
  let v := mix v 0 4 8 12 m[0] m[1]
  let v := mix v 1 5 9 13 m[2] m[3]
  let v := mix v 2 6 10 14 m[4] m[5]
  let v := mix v 3 7 11 15 m[6] m[7]
  let v := mix v 0 5 10 15 m[8] m[9]
  let v := mix v 1 6 11 12 m[10] m[11]
  let v := mix v 2 7 8 13 m[12] m[13]
  mix v 3 4 9 14 m[14] m[15]

/-- The order of the message words in the next round. -/
def permute (m : Block) : Block :=
  #v[m[2], m[6], m[3], m[10], m[7], m[0], m[4], m[13],
     m[1], m[11], m[12], m[5], m[9], m[14], m[15], m[8]]

/-- Rounds of mixing, the message permuted between them. -/
def rounds : Nat → Block → Block → Block
  | 0, v, _ => v
  | n + 1, v, m => rounds n (mixBlock v m) (permute m)

/-- A compression that is still to be done. -/
structure Node where
  /-- The chain so far. -/
  chain : Chain
  /-- The message. -/
  block : Block
  /-- The chunk number, zero for a parent. -/
  counter : UInt64
  /-- The bytes of the message. -/
  length : UInt32
  /-- The domain flags. -/
  flags : UInt32

/-- The first block of a chunk. -/
def chunkStart : UInt32 := 1
/-- The last block of a chunk. -/
def chunkEnd : UInt32 := 2
/-- A parent. -/
def parentFlag : UInt32 := 4
/-- The root of the tree. -/
def rootFlag : UInt32 := 8

/-- The compression function, cut to the eight words that are ever used. -/
def compress (n : Node) : Chain :=
  let h := n.chain
  let v : Block :=
    #v[h[0], h[1], h[2], h[3], h[4], h[5], h[6], h[7],
       start[0], start[1], start[2], start[3],
       n.counter.toUInt32, (n.counter >>> 32).toUInt32, n.length, n.flags]
  let v := rounds 7 v n.block
  #v[v[0] ^^^ v[8], v[1] ^^^ v[9], v[2] ^^^ v[10], v[3] ^^^ v[11],
     v[4] ^^^ v[12], v[5] ^^^ v[13], v[6] ^^^ v[14], v[7] ^^^ v[15]]

/-- The message block at an offset, zero bytes past the end. -/
def blockAt (b : ByteArray) (i : Nat) : Block :=
  let w (k : Nat) : UInt32 := Bytes.wordAt b (i + 4 * k)
  #v[w 0, w 1, w 2, w 3, w 4, w 5, w 6, w 7, w 8, w 9, w 10, w 11, w 12, w 13, w 14, w 15]

/-- Chains `n` full blocks from offset `i` on; the block after them is the last. `first` is the
flag of the next block. -/
def chainBlocks (b : ByteArray) (counter : UInt64) (stop : Nat) :
    (n i : Nat) → Chain → (first : UInt32) → Node
  | 0, i, chain, first =>
    ⟨chain, blockAt (b.extract i stop) 0, counter, UInt32.ofNat (stop - i), first ||| chunkEnd⟩
  | n + 1, i, chain, first =>
    let chain := compress ⟨chain, blockAt b i, counter, 64, first⟩
    chainBlocks b counter stop n (i + 64) chain 0

/-- The last compression of chunk `k`. -/
def chunk (b : ByteArray) (k : Nat) : Node :=
  let i := 1024 * k
  let stop := min b.size (i + 1024)
  chainBlocks b (UInt64.ofNat k) stop ((stop - i - 1) / 64) i start chunkStart

/-- The compression that joins two subtrees. -/
def parent (left right : Chain) : Node :=
  ⟨start, (left ++ right).cast (by rfl), 0, 64, parentFlag⟩

/-- Adds a finished chunk to the full subtrees to the left of the current chunk, smallest first.
`k` is how many chunks there are with it; each trailing zero bit of it completes a subtree. -/
def addChunk (k : Nat) (c : Chain) : List Chain → List Chain
  | [] => [c]
  | t :: trees =>
    if k % 2 = 0 then addChunk (k / 2) (compress (parent t c)) trees else c :: t :: trees

/-- The full subtrees left of the last chunk, after `n` more chunks from number `k` on. -/
def leftTrees (b : ByteArray) : (n k : Nat) → List Chain → List Chain
  | 0, _, trees => trees
  | n + 1, k, trees =>
    leftTrees b n (k + 1) (addChunk (k + 1) (compress (chunk b k)) trees)

/-- The root of the tree over a byte string. -/
def root (b : ByteArray) : Node :=
  let last := (b.size - 1) / 1024
  (leftTrees b last 0 []).foldl (fun n t => parent t (compress n)) (chunk b last)

/-- The bytes of a chain. -/
def Chain.bytes (c : Chain) : ByteArray :=
  c.toList.foldl Bytes.pushWord .empty

/-- The digest of a byte string. -/
def digest (b : ByteArray) : ByteArray :=
  let n := root b
  Chain.bytes (compress { n with flags := n.flags ||| rootFlag })

theorem size_foldl_pushWord (ws : List UInt32) (b : ByteArray) :
    (ws.foldl Bytes.pushWord b).size = b.size + 4 * ws.length := by
  induction ws generalizing b with
  | nil => rfl
  | cons w ws ih => simp [ih]; omega

@[simp] theorem size_digest (b : ByteArray) : (digest b).size = 32 := by
  rw [digest, Chain.bytes, size_foldl_pushWord, Vector.length_toList]
  rfl

end Blake3

end BytecodeHost
