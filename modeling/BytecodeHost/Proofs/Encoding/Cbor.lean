import Mathlib.Tactic.Ring
import Mathlib.Tactic.SplitIfs
import BytecodeHost.Encoding.Cbor
import BytecodeHost.Proofs.Text

/-!
# Reading what was written as binary objects

An item that is written has the shortest heads, so its first byte fixes both the type and the width
of the argument. Reading it back is one induction over the fuel of the reader, for an item and for
the items of an array at once: what stands behind the offset is what was written, followed by
anything.

Not every item can be written. An argument has at most eight bytes, a text that is read back is in
one chunk, and the reader bounds how many items there are and how deep they are nested. `Cbor.Fits`
says all this.

## Main definitions

* `Cbor.bytesOf` — the bytes of an item, as a list
* `Cbor.Fits` — the items that can be read back

## Main results

* `Cbor.readHead?_headBytes` — a head is read back
* `Cbor.readItem?_bytesOf` — so is an item, whatever follows it
* `Cbor.parse?_encode` — and an item that is a whole byte string
* `Cbor.toInt?_ofInt`, `Cbor.toText?_ofString` — the values of items that stand for them
-/

namespace BytecodeHost

namespace Cbor

/-! ## Numbers and heads -/

/-- A number in big-endian order. -/
def bigEndian : (width n : Nat) → List UInt8
  | 0, _ => []
  | width + 1, n => (n >>> (8 * width)).toUInt8 :: bigEndian width n

@[simp] theorem length_bigEndian (width n : Nat) : (bigEndian width n).length = width := by
  induction width with
  | zero => rfl
  | succ width ih => rw [bigEndian, List.length_cons, ih]

theorem toBytes_pushBE (out : ByteArray) (width n : Nat) :
    Bytes.toBytes (pushBE out width n) = Bytes.toBytes out ++ bigEndian width n := by
  induction width generalizing out with
  | zero => simp [pushBE, bigEndian]
  | succ width ih => simp [pushBE, bigEndian, ih]

/-- What the reader has after `width` digits, starting from the number `acc`. -/
theorem foldl_byteAt_bigEndian {b : ByteArray} {i width n : Nat} {rest : List UInt8}
    (hsize : i + width ≤ b.size) (h : (Bytes.toBytes b).drop i = bigEndian width n ++ rest)
    (acc : Nat) :
    (List.range width).foldl (fun n k => 256 * n + (Bytes.byteAt b (i + k)).toNat) acc
      = acc * 256 ^ width + n % 256 ^ width := by
  induction width generalizing i acc with
  | zero => simp [Nat.mod_one]
  | succ width ih =>
    rw [Bytes.drop_eq_cons_of_lt (by omega), bigEndian, List.cons_append] at h
    obtain ⟨hbyte, hrest⟩ := List.cons.inj h
    have hdigit : (Bytes.byteAt b i).toNat = n / 256 ^ width % 256 := by
      rw [hbyte, Nat.shiftRight_eq_div_pow, Nat.pow_mul]
      exact UInt8.toNat_ofNat'
    have hshift : (fun n k => 256 * n + (Bytes.byteAt b (i + Nat.succ k)).toNat)
        = fun n k => 256 * n + (Bytes.byteAt b (i + 1 + k)).toNat := by
      funext n k
      rw [Nat.add_succ, Nat.succ_add]
    rw [List.range_succ_eq_map, List.foldl_cons, List.foldl_map, hshift, ih (by omega) hrest,
      Nat.add_zero, hdigit, Nat.mod_pow_succ, Nat.pow_succ']
    ring

/-- **A number is read back** if it fits its width. -/
theorem readBE?_bigEndian {b : ByteArray} {i width n : Nat} {rest : List UInt8} (hi : i ≤ b.size)
    (hn : n < 256 ^ width) (h : (Bytes.toBytes b).drop i = bigEndian width n ++ rest) :
    readBE? b i width = some n := by
  have hsize := Bytes.add_length_of_drop_eq hi h
  rw [List.length_append, length_bigEndian] at hsize
  rw [readBE?, if_neg (by omega), foldl_byteAt_bigEndian (by omega) h, Nat.zero_mul, Nat.zero_add,
    Nat.mod_eq_of_lt hn]

/-- How many bytes an argument takes after the first one of its head. -/
def headWidth (n : Nat) : Nat :=
  if n < 24 then 0 else if n < 2 ^ 8 then 1 else if n < 2 ^ 16 then 2
  else if n < 2 ^ 32 then 4 else 8

/-- What the first byte of a head says of its argument. -/
def headInfo (n : Nat) : Nat :=
  if n < 24 then n else if n < 2 ^ 8 then 24 else if n < 2 ^ 16 then 25
  else if n < 2 ^ 32 then 26 else 27

/-- The bytes of a head. -/
def headBytes (major n : Nat) : List UInt8 :=
  (32 * major + headInfo n).toUInt8 :: bigEndian (headWidth n) n

theorem headInfo_lt (n : Nat) : headInfo n < 28 := by
  rw [headInfo]
  split_ifs <;> omega

theorem headInfo_ne (n : Nat) : headInfo n ≠ 31 := by
  have := headInfo_lt n
  omega

theorem length_headBytes (major n : Nat) : (headBytes major n).length = headWidth n + 1 := by
  rw [headBytes, List.length_cons, length_bigEndian]

theorem length_headBytes_le (major n : Nat) : (headBytes major n).length ≤ 9 := by
  rw [length_headBytes, headWidth]
  split_ifs <;> omega

theorem toBytes_pushHead (out : ByteArray) (major n : Nat) :
    Bytes.toBytes (pushHead out major n) = Bytes.toBytes out ++ headBytes major n := by
  have hshifts : 1 <<< 8 = 2 ^ 8 ∧ 1 <<< 16 = 2 ^ 16 ∧ 1 <<< 32 = 2 ^ 32 := by decide
  obtain ⟨h₁, h₂, h₃⟩ := hshifts
  simp only [pushHead, headBytes, headInfo, headWidth, h₁, h₂, h₃]
  split_ifs <;> simp [toBytes_pushBE, bigEndian]

/-- The first byte of a head gives both of its parts. -/
theorem readBE?_first {b : ByteArray} {i major info : Nat} {rest : List UInt8} (hi : i ≤ b.size)
    (hmajor : major < 8) (hinfo : info < 32)
    (h : (Bytes.toBytes b).drop i = (32 * major + info).toUInt8 :: rest) :
    readBE? b i 1 = some (32 * major + info) :=
  readBE?_bigEndian hi (by omega) h

/-- An argument of its own bytes is read back. -/
theorem readHead?_argument {b : ByteArray} {i major info width n : Nat} {rest : List UInt8}
    (hi : i ≤ b.size) (hmajor : major < 8)
    (hinfo : (info, width) ∈ [(24, 1), (25, 2), (26, 4), (27, 8)]) (hn : n < 256 ^ width)
    (hsimple : major = 7 → info = 24 → 32 ≤ n)
    (h : (Bytes.toBytes b).drop i = (32 * major + info).toUInt8 :: (bigEndian width n ++ rest)) :
    readHead? b i = some (⟨major, info, n⟩, i + (width + 1)) := by
  have hrange : info < 32 := by
    simp only [List.mem_cons, Prod.mk.injEq, List.not_mem_nil, or_false] at hinfo
    omega
  have hsize := Bytes.add_length_of_drop_eq hi h
  rw [List.length_cons] at hsize
  have hbody : (Bytes.toBytes b).drop (i + 1) = bigEndian width n ++ rest := by
    rw [← List.drop_drop, h, List.drop_one, List.tail_cons]
  have hvalue : readBE? b (i + 1) width = some n := readBE?_bigEndian (by omega) hn hbody
  have hparts : (32 * major + info) / 32 = major ∧ (32 * major + info) % 32 = info := by omega
  have hread : ¬(major = 7 ∧ info = 24 ∧ n < 32) := by
    rintro ⟨hm, h24, hlt⟩
    exact absurd (hsimple hm h24) (Nat.not_le.mpr hlt)
  rw [readHead?, readBE?_first hi hmajor hrange h]
  simp only [bind, Option.bind, hparts]
  simp only [List.mem_cons, Prod.mk.injEq, List.not_mem_nil, or_false] at hinfo
  rcases hinfo with ⟨rfl, rfl⟩ | ⟨rfl, rfl⟩ | ⟨rfl, rfl⟩ | ⟨rfl, rfl⟩
  all_goals
    rw [hvalue]
    exact if_neg hread

/-- **A head is read back.** A simple value is not written in the form that only the greater ones
have. -/
theorem readHead?_headBytes {b : ByteArray} {i major n : Nat} {rest : List UInt8} (hi : i ≤ b.size)
    (hmajor : major < 8) (hn : n < 2 ^ 64) (hsimple : major = 7 → n < 24 ∨ 32 ≤ n)
    (h : (Bytes.toBytes b).drop i = headBytes major n ++ rest) :
    readHead? b i = some (⟨major, headInfo n, n⟩, i + (headBytes major n).length) := by
  rw [length_headBytes]
  rw [headBytes, List.cons_append] at h
  simp only [headInfo, headWidth] at h ⊢
  by_cases h₀ : n < 24
  · simp only [if_pos h₀] at h ⊢
    have hparts : (32 * major + n) / 32 = major ∧ (32 * major + n) % 32 = n := by omega
    rw [readHead?, readBE?_first hi hmajor (by omega) h]
    simp only [bind, Option.bind, hparts]
    split
    all_goals first | omega | rw [if_pos h₀]
  · have hlong : major = 7 → ∀ info, info = 24 → 32 ≤ n := by
      intro hm _ _
      exact (hsimple hm).resolve_left h₀
    simp only [if_neg h₀] at h ⊢
    split_ifs at h ⊢
    · exact readHead?_argument hi hmajor (by decide) (by omega) (fun hm => hlong hm _) h
    · exact readHead?_argument hi hmajor (by decide) (by omega) (fun hm => hlong hm _) h
    · exact readHead?_argument hi hmajor (by decide) (by omega) (fun hm => hlong hm _) h
    · exact readHead?_argument hi hmajor (by decide) (by omega) (fun hm => hlong hm _) h

/-! ## Items -/

mutual

/-- The bytes of an item. -/
def bytesOf : Cbor → List UInt8
  | uint n => headBytes 0 n
  | negative n => headBytes 1 n
  | bytes b => headBytes 2 b.size ++ Bytes.toBytes b
  | text chunks => headBytes 3 (concat chunks).size ++ Bytes.toBytes (concat chunks)
  | array items => headBytes 4 items.length ++ bytesOfItems items
  | map entries => headBytes 5 entries.length ++ bytesOfEntries entries
  | tag number content => headBytes 6 number ++ bytesOf content
  | simple n => headBytes 7 n
  | float bits => 0xFB :: bigEndian 8 bits

/-- The bytes of items one after the other. -/
def bytesOfItems : List Cbor → List UInt8
  | [] => []
  | item :: rest => bytesOf item ++ bytesOfItems rest

/-- The bytes of keys and values in turn. -/
def bytesOfEntries : List (Cbor × Cbor) → List UInt8
  | [] => []
  | (k, v) :: rest => bytesOf k ++ (bytesOf v ++ bytesOfEntries rest)

end

mutual

theorem toBytes_push (out : ByteArray) (c : Cbor) :
    Bytes.toBytes (push out c) = Bytes.toBytes out ++ bytesOf c := by
  cases c with
  | uint n => exact toBytes_pushHead out 0 n
  | negative n => exact toBytes_pushHead out 1 n
  | bytes b => simp [push, bytesOf, Bytes.toBytes_append, toBytes_pushHead]
  | text chunks => simp [push, bytesOf, Bytes.toBytes_append, toBytes_pushHead]
  | array items => simp [push, bytesOf, toBytes_pushItems _ items, toBytes_pushHead]
  | map entries => simp [push, bytesOf, toBytes_pushEntries _ entries, toBytes_pushHead]
  | tag number content => simp [push, bytesOf, toBytes_push _ content, toBytes_pushHead]
  | simple n => exact toBytes_pushHead out 7 n
  | float bits => simp [push, bytesOf, toBytes_pushBE]

theorem toBytes_pushItems (out : ByteArray) (items : List Cbor) :
    Bytes.toBytes (pushItems out items) = Bytes.toBytes out ++ bytesOfItems items := by
  cases items with
  | nil => simp [pushItems, bytesOfItems]
  | cons item rest =>
    simp [pushItems, bytesOfItems, toBytes_pushItems _ rest, toBytes_push _ item]

theorem toBytes_pushEntries (out : ByteArray) (entries : List (Cbor × Cbor)) :
    Bytes.toBytes (pushEntries out entries) = Bytes.toBytes out ++ bytesOfEntries entries := by
  cases entries with
  | nil => simp [pushEntries, bytesOfEntries]
  | cons entry rest =>
    obtain ⟨k, v⟩ := entry
    simp [pushEntries, bytesOfEntries, toBytes_pushEntries _ rest, toBytes_push _ k,
      toBytes_push _ v]

end

theorem toBytes_encode (c : Cbor) : Bytes.toBytes c.encode = bytesOf c :=
  toBytes_push .empty c

theorem size_encode (c : Cbor) : c.encode.size = (bytesOf c).length := by
  rw [← toBytes_encode, Bytes.length_toBytes]

/-- The type that the head of an item gives. -/
def major : Cbor → Nat
  | uint _ => 0
  | negative _ => 1
  | bytes _ => 2
  | text _ => 3
  | array _ => 4
  | map _ => 5
  | tag _ _ => 6
  | simple _ => 7
  | float _ => 7

theorem major_lt (c : Cbor) : c.major < 8 := by
  cases c <;> simp [major]

/-- The first byte of an item shows its type. -/
theorem exists_bytesOf_eq_cons (c : Cbor) :
    ∃ info rest, info < 28 ∧ bytesOf c = (32 * c.major + info).toUInt8 :: rest := by
  cases c with
  | float bits => exact ⟨27, bigEndian 8 bits, by decide, by rw [bytesOf]; rfl⟩
  | _ =>
    rw [bytesOf]
    exact ⟨headInfo _, _, headInfo_lt _, rfl⟩

theorem length_bytesOf_pos (c : Cbor) : 0 < (bytesOf c).length := by
  obtain ⟨info, rest, -, h⟩ := exists_bytesOf_eq_cons c
  simp [h]

mutual

/-- The items that can be read back where `depth` levels may still be opened. -/
def Fits : (depth : Nat) → Cbor → Prop
  | _, uint n => n < 2 ^ 64
  | _, negative n => n < 2 ^ 64
  | _, bytes b => b.size < 2 ^ 64
  | _, text chunks => ∃ b, chunks = [b] ∧ b.size < 2 ^ 64
  | depth, array items => 0 < depth ∧ items.length ≤ maxItems ∧ FitItems (depth - 1) items
  | depth, map entries => 0 < depth ∧ entries.length ≤ maxItems ∧ FitEntries (depth - 1) entries
  | depth, tag number content =>
    number < 2 ^ 64 ∧ (content.major = 6 → 0 < depth) ∧
      Fits (if content.major = 6 then depth - 1 else depth) content
  | _, simple n => n < 24 ∨ 32 ≤ n ∧ n < 2 ^ 8
  | _, float bits => bits < 2 ^ 64

/-- Items that can be read back. -/
def FitItems : (depth : Nat) → List Cbor → Prop
  | _, [] => True
  | depth, item :: rest => Fits depth item ∧ FitItems depth rest

/-- Keys and values that can be read back. -/
def FitEntries : (depth : Nat) → List (Cbor × Cbor) → Prop
  | _, [] => True
  | depth, (k, v) :: rest => Fits depth k ∧ Fits depth v ∧ FitEntries depth rest

end

/-- Keys and values in turn. -/
def flatten : List (Cbor × Cbor) → List Cbor
  | [] => []
  | (k, v) :: rest => k :: v :: flatten rest

theorem pairs_flatten (entries : List (Cbor × Cbor)) : pairs (flatten entries) = entries := by
  induction entries with
  | nil => rfl
  | cons entry rest ih => rw [flatten, pairs, ih]

theorem length_flatten (entries : List (Cbor × Cbor)) :
    (flatten entries).length = 2 * entries.length := by
  induction entries with
  | nil => rfl
  | cons entry rest ih =>
    simp only [flatten, List.length_cons, ih]
    omega

theorem bytesOfItems_flatten (entries : List (Cbor × Cbor)) :
    bytesOfItems (flatten entries) = bytesOfEntries entries := by
  induction entries with
  | nil => simp [flatten, bytesOfItems, bytesOfEntries]
  | cons entry rest ih => simp [flatten, bytesOfItems, bytesOfEntries, ih]

theorem fitItems_flatten {depth : Nat} {entries : List (Cbor × Cbor)}
    (h : FitEntries depth entries) : FitItems depth (flatten entries) := by
  induction entries with
  | nil => simp [flatten, FitItems]
  | cons entry rest ih =>
    simp only [FitEntries] at h
    simp only [flatten, FitItems]
    exact ⟨h.1, h.2.1, ih h.2.2⟩

theorem length_bytesOf_ofInt_le (i : Int) : (bytesOf (ofInt i)).length ≤ 9 := by
  rw [ofInt]
  split_ifs
  · rw [bytesOf]
    exact length_headBytes_le _ _
  · rw [bytesOf]
    exact length_headBytes_le _ _

theorem concat_singleton (b : ByteArray) : concat [b] = b := by
  rw [← Bytes.toBytes_inj]
  simp [concat]

/-! ## Reading items -/

section

variable {b : ByteArray} {fuel : Nat}

/-- A string of one chunk is read back after its head. -/
theorem readString?_of_drop (major : Nat) {i : Nat} {content : ByteArray} {rest : List UInt8}
    (hi : i ≤ b.size) (h : (Bytes.toBytes b).drop i = Bytes.toBytes content ++ rest) :
    readString? b ⟨major, headInfo content.size, content.size⟩ i
      = some ([content], i + content.size) := by
  have hsize := Bytes.add_length_of_drop_eq hi h
  rw [List.length_append, Bytes.length_toBytes] at hsize
  rw [readString?, Head.isOpen, decide_eq_false (headInfo_ne _), if_neg Bool.false_ne_true,
    if_neg (show ¬b.size < i + content.size by omega), Bytes.extract_of_drop_eq h]

/-- What the reader does with an item, given how many steps it may take. -/
def ReadsItem (b : ByteArray) (fuel : Nat) : Prop :=
  ∀ ⦃c : Cbor⦄ ⦃depth i : Nat⦄ ⦃rest : List UInt8⦄, c.Fits depth → i ≤ b.size →
    (Bytes.toBytes b).drop i = bytesOf c ++ rest → 2 * (bytesOf c).length ≤ fuel →
    readItem? b fuel depth i = some (c, i + (bytesOf c).length)

/-- What the reader does with a given number of items. -/
def ReadsItems (b : ByteArray) (fuel : Nat) : Prop :=
  ∀ ⦃items : List Cbor⦄ ⦃depth i : Nat⦄ ⦃rest : List UInt8⦄ (before : List Cbor),
    FitItems depth items → i ≤ b.size → (Bytes.toBytes b).drop i = bytesOfItems items ++ rest →
    2 * (bytesOfItems items).length + 1 ≤ fuel →
    readItems? b fuel depth i (some items.length) before
      = some (before.reverse ++ items, i + (bytesOfItems items).length)

theorem ReadsItems.succ (hitem : ReadsItem b fuel) (hitems : ReadsItems b fuel) :
    ReadsItems b (fuel + 1) := by
  intro items depth i rest before hfit hi h hfuel
  cases items with
  | nil => simp [readItems?, bytesOfItems]
  | cons item items =>
    simp only [FitItems] at hfit
    simp only [bytesOfItems, List.length_append] at hfuel ⊢
    rw [bytesOfItems, List.append_assoc] at h
    have hpos := length_bytesOf_pos item
    have hsize := Bytes.add_length_of_drop_eq hi h
    rw [List.length_append] at hsize
    rw [readItems?, if_neg (by simp), if_neg (by simp), hitem hfit.1 hi h (by omega)]
    simp only [bind, Option.bind, List.length_cons, Option.map_some, Nat.add_sub_cancel]
    rw [hitems (item :: before) hfit.2 (by omega) (Bytes.drop_add_of_drop_eq h) (by omega)]
    simp [Nat.add_assoc]

/-- An array is read back if its items are. -/
theorem ReadsItems.array (hitems : ReadsItems b fuel) {items : List Cbor} {depth i : Nat}
    {rest : List UInt8} (hfit : (array items).Fits depth) (hi : i ≤ b.size)
    (h : (Bytes.toBytes b).drop i = bytesOf (array items) ++ rest)
    (hfuel : 2 * (bytesOf (array items)).length ≤ fuel + 1) :
    readItem? b (fuel + 1) depth i = some (array items, i + (bytesOf (array items)).length) := by
  simp only [Fits] at hfit
  obtain ⟨hdepth, hcount, hfit⟩ := hfit
  have hmax : maxItems = 131072 := rfl
  have hhead := length_headBytes 4 items.length
  have hsize := Bytes.add_length_of_drop_eq hi h
  simp only [bytesOf, List.append_assoc, List.length_append] at h hsize hfuel ⊢
  have hbody := hitems [] hfit (by omega) (Bytes.drop_add_of_drop_eq h) (by omega)
  rw [readItem?, readHead?_headBytes hi (by decide) (by omega) (by omega) h]
  simp only [bind, Option.bind, Head.isOpen, decide_eq_false (headInfo_ne items.length)]
  rw [if_neg (by omega), if_neg Bool.false_ne_true, hbody, ← Nat.add_assoc]
  exact if_neg (Nat.not_lt.mpr hcount)

/-- A map is read back if its keys and values are. -/
theorem ReadsItems.map (hitems : ReadsItems b fuel) {entries : List (Cbor × Cbor)} {depth i : Nat}
    {rest : List UInt8} (hfit : (map entries).Fits depth) (hi : i ≤ b.size)
    (h : (Bytes.toBytes b).drop i = bytesOf (map entries) ++ rest)
    (hfuel : 2 * (bytesOf (map entries)).length ≤ fuel + 1) :
    readItem? b (fuel + 1) depth i = some (map entries, i + (bytesOf (map entries)).length) := by
  simp only [Fits] at hfit
  obtain ⟨hdepth, hcount, hfit⟩ := hfit
  have hmax : maxItems = 131072 := rfl
  have hhead := length_headBytes 5 entries.length
  have hitemCount := length_flatten entries
  have hsize := Bytes.add_length_of_drop_eq hi h
  simp only [bytesOf, ← bytesOfItems_flatten, List.append_assoc, List.length_append]
    at h hsize hfuel ⊢
  have hbody := hitems [] (fitItems_flatten hfit) (by omega) (Bytes.drop_add_of_drop_eq h)
    (by omega)
  rw [hitemCount, List.reverse_nil, List.nil_append] at hbody
  rw [readItem?, readHead?_headBytes hi (by decide) (by omega) (by omega) h]
  simp only [bind, Option.bind, Head.isOpen, decide_eq_false (headInfo_ne entries.length)]
  rw [if_neg (by omega), if_neg Bool.false_ne_true, hbody, ← Nat.add_assoc]
  simp only [pairs_flatten]
  exact if_neg (by omega)

/-- An item with a tag is read back if the item is. The reader looks at the first byte behind the
tag, because only a further tag opens a level. -/
theorem ReadsItem.tag (hitem : ReadsItem b fuel) {number : Nat} {content : Cbor} {depth i : Nat}
    {rest : List UInt8} (hfit : (tag number content).Fits depth) (hi : i ≤ b.size)
    (h : (Bytes.toBytes b).drop i = bytesOf (tag number content) ++ rest)
    (hfuel : 2 * (bytesOf (tag number content)).length ≤ fuel + 1) :
    readItem? b (fuel + 1) depth i
      = some (tag number content, i + (bytesOf (tag number content)).length) := by
  simp only [Fits] at hfit
  obtain ⟨hnumber, hdepth, hfit⟩ := hfit
  have hhead := length_headBytes 6 number
  have hsize := Bytes.add_length_of_drop_eq hi h
  simp only [bytesOf, List.append_assoc, List.length_append] at h hsize hfuel ⊢
  have hbody := Bytes.drop_add_of_drop_eq h
  have hcontent := hitem hfit (by omega) hbody (by omega)
  obtain ⟨info, body, hinfo, hfirst⟩ := exists_bytesOf_eq_cons content
  rw [hfirst, List.cons_append] at hbody
  have hnext := readBE?_first (by omega) content.major_lt (by omega) hbody
  have hmajor : (32 * content.major + info) / 32 = content.major := by omega
  rw [readItem?, readHead?_headBytes hi (by decide) hnumber (by omega) h]
  simp only [bind, Option.bind, hnext, hmajor]
  rw [if_neg (by omega), hcontent, ← Nat.add_assoc]
  rfl

theorem ReadsItem.succ (hitem : ReadsItem b fuel) (hitems : ReadsItems b fuel) :
    ReadsItem b (fuel + 1) := by
  intro c depth i rest hfit hi h hfuel
  have hsize := Bytes.add_length_of_drop_eq hi h
  cases c with
  | uint n =>
    simp only [bytesOf] at h ⊢
    rw [readItem?, readHead?_headBytes hi (by decide) hfit (by omega) h]
    rfl
  | negative n =>
    simp only [bytesOf] at h ⊢
    rw [readItem?, readHead?_headBytes hi (by decide) hfit (by omega) h]
    rfl
  | bytes content =>
    simp only [bytesOf, List.append_assoc, List.length_append, Bytes.length_toBytes] at h hsize ⊢
    have hbody := readString?_of_drop 2 (by omega) (Bytes.drop_add_of_drop_eq h)
    rw [readItem?, readHead?_headBytes hi (by decide) hfit (by omega) h]
    simp only [bind, Option.bind, hbody]
    rw [concat_singleton, Nat.add_assoc]
    rfl
  | text chunks =>
    simp only [Fits] at hfit
    obtain ⟨content, rfl, hcontent⟩ := hfit
    simp only [bytesOf, concat_singleton, List.append_assoc, List.length_append,
      Bytes.length_toBytes] at h hsize ⊢
    have hbody := readString?_of_drop 3 (by omega) (Bytes.drop_add_of_drop_eq h)
    rw [readItem?, readHead?_headBytes hi (by decide) hcontent (by omega) h]
    simp only [bind, Option.bind, hbody]
    rw [Nat.add_assoc]
    rfl
  | array items => exact hitems.array hfit hi h hfuel
  | map entries => exact hitems.map hfit hi h hfuel
  | tag number content => exact hitem.tag hfit hi h hfuel
  | simple n =>
    simp only [Fits] at hfit
    have hinfo : headInfo n < 25 := by
      rw [headInfo]
      split_ifs <;> omega
    simp only [bytesOf] at h ⊢
    rw [readItem?, readHead?_headBytes hi (by decide) (by omega) (by omega) h]
    exact if_neg (Nat.not_le.mpr hinfo)
  | float bits =>
    simp only [bytesOf, List.cons_append] at h ⊢
    have hhead : readHead? b i = some (⟨7, 27, bits⟩, i + (8 + 1)) :=
      readHead?_argument hi (by decide) (by decide) hfit (by omega) h
    rw [readItem?, hhead, List.length_cons, length_bigEndian]
    rfl

end

/-- **An item is read back**, whatever follows it. -/
theorem readItem?_bytesOf (b : ByteArray) (fuel : Nat) : ReadsItem b fuel ∧ ReadsItems b fuel := by
  induction fuel with
  | zero =>
    constructor
    · intro c depth i rest _ _ _ hfuel
      have := length_bytesOf_pos c
      omega
    · intro items depth i rest before _ _ _ hfuel
      omega
  | succ fuel ih =>
    obtain ⟨hitem, hitems⟩ := ih
    exact ⟨hitem.succ hitems, hitems.succ hitem⟩

/-- **An item is read back** from the byte string that it is written as. -/
theorem parse?_encode {c : Cbor} (h : c.Fits maxDepth) : parse? c.encode = some c := by
  have hsize := size_encode c
  have hwhole : (Bytes.toBytes c.encode).drop 0 = bytesOf c ++ [] := by
    rw [List.drop_zero, toBytes_encode, List.append_nil]
  have hread := (readItem?_bytesOf c.encode (2 * c.encode.size + 2)).1 h (Nat.zero_le _) hwhole
    (by omega)
  rw [Nat.zero_add, ← hsize] at hread
  rw [parse?, hread]
  exact if_pos rfl

/-! ## Values -/

/-- Signed 64-bit numbers have items that can be read back. -/
theorem fits_ofInt {i : Int} (hlow : -2 ^ 63 ≤ i) (hhigh : i < 2 ^ 63) (depth : Nat) :
    (ofInt i).Fits depth := by
  rw [ofInt]
  split_ifs
  · simp only [Fits]
    omega
  · simp only [Fits]
    omega

theorem fits_ofString {s : String} (h : s.utf8ByteSize < 2 ^ 64) (depth : Nat) :
    (ofString s).Fits depth := by
  simp only [ofString, Fits]
  exact ⟨s.toUTF8, rfl, h⟩

/-- **A signed 64-bit number is the value of its item.** -/
theorem toInt?_ofInt {i : Int} (hlow : -2 ^ 63 ≤ i) (hhigh : i < 2 ^ 63) :
    (ofInt i).toInt? = some i := by
  have hbound : 1 <<< 63 = 2 ^ 63 := by decide
  rw [ofInt]
  split_ifs with h
  · rw [toInt?, if_pos (by omega), Int.toNat_of_nonneg h]
  · rw [toInt?, if_pos (by omega), Int.toNat_of_nonneg (by omega)]
    congr 1
    omega

/-- **A string is the value of its item.** -/
theorem toText?_ofString (s : String) : (ofString s).toText? = some s := by
  have hvalid : Text.isValid ⟨s.toUTF8⟩ = true := Text.isValid_ofString s
  have hread : String.fromUTF8? s.toUTF8 = some s := by
    rw [String.fromUTF8?, String.toUTF8_eq_toByteArray, dif_pos s.isValidUTF8]
    rfl
  rw [ofString, toText?, stringOfChunks?, List.all_cons, List.all_nil, hvalid, Bool.and_true,
    if_pos rfl, concat_singleton, hread]

theorem fixedSize_of_size {n : Nat} {b : ByteArray} (h : b.size = n) : fixedSize n b = b := by
  rw [fixedSize, ← h, ByteArray.extract_append_eq_left rfl]

end Cbor

end BytecodeHost
