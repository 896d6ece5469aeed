import BytecodeHost.Machine.Basic
import BytecodeHost.Proofs.Image.Assembly

/-!
# Where placements end up

The assembler hands out an address for every placement before it knows how long the segments will
be. The addresses stay right because placements come in the order of the segments: a later placement
only adds bytes behind the ones that are there. So the three segments are one list of bytes that
grows at its end (`Assembler.memory`), a placement gets its length as an address and appends its
content, and the first placement finds the null word in front of it.

Loading copies that list to the bottom of the arena, with zeros behind it, and the program stack is
reserved at the top, for which the bss segment is longer than what was asked for.

## Main definitions

* `Directive.content` — the bytes that a placement asks for
* `Assembler.memory` — the segments so far, one behind the other
* `Assembler.placements` — placements with the addresses that they got

## Main results

* `Assembler.memory_emit` — what a directive adds to the memory
* `Assembler.placements_emitAll` — placements follow one another
* `Assembler.exists_arena` — the memory is the bottom of the arena, below the program stack
* `Assembler.placements_loaded` — placements in a loaded module
-/

namespace BytecodeHost

namespace Directive

/-- The bytes that a placement asks for. -/
def content : Directive → List UInt8
  | data words => words.flatMap fun w => Bytes.littleEndian w.toUInt32
  | string bytes => Bytes.toBytes bytes ++ [0]
  | reserve size => List.replicate size.toInt.toNat 0
  | _ => []

/-- Whether a directive is a placement. -/
def isPlacement : Directive → Bool
  | data _ | string _ | reserve _ => true
  | _ => false

end Directive

namespace Assembler

open Directive

/-! ## Memory -/

/-- The three segments so far, one behind the other. -/
def memory (a : Assembler) : List UInt8 :=
  Bytes.toBytes a.data ++ Bytes.toBytes a.lit ++ List.replicate a.bss.toInt.toNat 0

/-- Nothing was placed yet, or the null word is there. -/
def HasNull (a : Assembler) : Prop :=
  a.memory = [] ∨ 4 ≤ a.memory.length

theorem lit_reserveNull (a : Assembler) : a.reserveNull.lit = a.lit := by
  rw [reserveNull]
  split <;> rfl

/-- The null word is reserved before anything else. -/
theorem memory_reserveNull {a : Assembler} (hbss : 0 ≤ a.bss.toInt) (hnull : a.HasNull) :
    a.memory <+: a.reserveNull.memory ∧ 4 ≤ a.reserveNull.memory.length := by
  rw [reserveNull]
  split
  · rename_i hempty
    obtain ⟨hdata, hlit, hzero⟩ := hempty
    have hmemory : a.memory = [] := by
      rw [memory, hzero]
      refine List.eq_nil_of_length_eq_zero ?_
      simp [hdata, hlit]
    refine ⟨hmemory ▸ List.nil_prefix, ?_⟩
    simp only [memory, List.length_append, Bytes.length_toBytes, Bytes.size_zeros]
    omega
  · rename_i hempty
    refine ⟨List.prefix_rfl, hnull.resolve_left fun hmemory => hempty ?_⟩
    have hlen := congrArg List.length hmemory
    simp only [memory, List.length_append, Bytes.length_toBytes, List.length_replicate,
      List.length_nil] at hlen
    refine ⟨by omega, by omega, Int32.toInt_inj.mp ?_⟩
    rw [Int32.toInt_zero]
    omega

/-- **What a directive adds to the memory**: nothing, or its content behind the null word and all
that was placed before, whose length is the address. -/
theorem memory_emit {a b : Assembler} {d : Directive} {r : Option Int32}
    (h : a.emit d = .ok (b, r)) (hbss : 0 ≤ a.bss.toInt) (hd : 0 ≤ d.reserved.toInt)
    (hsum : a.bss.toInt + d.reserved.toInt < 2 ^ 31) :
    (d.isPlacement = false ∧ r = none ∧ b.memory = a.memory) ∨
      (d.isPlacement = true ∧ r = some (Int32.ofNat a.reserveNull.memory.length) ∧
        b.memory = a.reserveNull.memory ++ d.content) := by
  have hlit := a.lit_reserveNull
  obtain ⟨-, -, hbss'⟩ := a.reserveNull_cases
  -- no segment may follow the one that a placement goes to
  have no_bss : ¬0 < a.bss → a.bss = 0 := by
    intro hle
    rw [Int32.lt_iff_toInt_lt, Int32.toInt_zero] at hle
    refine Int32.toInt_inj.mp ?_
    rw [Int32.toInt_zero]
    omega
  cases d with
  | label | op | imm | arg | branch | constLabel | trap =>
    obtain ⟨rfl, rfl⟩ := Prod.mk.inj (Except.ok.inj h)
    exact .inl ⟨rfl, rfl, rfl⟩
  | data words =>
    rw [emit] at h
    split at h
    · contradiction
    · rename_i horder
      obtain ⟨rfl, rfl⟩ := Prod.mk.inj (Except.ok.inj h)
      rw [not_or] at horder
      have hzero := no_bss horder.2
      have hempty : Bytes.toBytes a.lit = [] :=
        List.eq_nil_of_length_eq_zero (Nat.eq_zero_of_not_pos horder.1)
      have hwords := Header.toBytes_foldl_pushWord (words.map Int32.toUInt32) a.reserveNull.data
      rw [List.foldl_map, List.flatMap_map] at hwords
      refine .inr ⟨rfl, ?_, ?_⟩
      · simp [memory, hlit, hbss', hempty, hzero]
      · simp [memory, hlit, hbss', hempty, hzero, hwords, content]
  | string bytes =>
    rw [emit] at h
    split at h
    · contradiction
    · rename_i horder
      obtain ⟨rfl, rfl⟩ := Prod.mk.inj (Except.ok.inj h)
      have hzero := no_bss horder
      refine .inr ⟨rfl, ?_, ?_⟩
      · simp [memory, hbss', hzero]
      · simp [memory, hbss', hzero, content, Bytes.toBytes_append]
  | reserve size =>
    obtain ⟨rfl, rfl⟩ := Prod.mk.inj (Except.ok.inj h)
    have hadd : (a.bss + size).toInt = a.bss.toInt + size.toInt :=
      Bytes.toInt_add_of_lt (Int.add_nonneg hbss hd) hsum
    have hofNat : Int32.ofNat a.bss.toInt.toNat = a.bss := by
      have := a.bss.toInt_lt
      refine Int32.toInt_inj.mp ?_
      rw [Int32.toInt_ofNat_of_lt (by omega)]
      omega
    have hlength : a.reserveNull.memory.length
        = a.reserveNull.data.size + a.reserveNull.lit.size + a.bss.toInt.toNat := by
      rw [memory, hbss', List.length_append, List.length_append, List.length_replicate]
      rfl
    refine .inr ⟨rfl, ?_, ?_⟩
    · rw [hlength, Int32.ofNat_add (_ + _), hofNat, hbss']
    · have htoNat : (a.bss.toInt + size.toInt).toNat = a.bss.toInt.toNat + size.toInt.toNat :=
        Int.toNat_add hbss hd
      rw [memory, memory]
      dsimp only
      rw [hbss', hadd, htoNat, ← List.replicate_append_replicate, ← List.append_assoc]
      rfl

/-! ## Placements -/

/-- Placements with the addresses that they get. -/
def placements (a : Assembler) : List Directive → List (Directive × Int32)
  | [] => []
  | d :: ds =>
    match a.emit d with
    | .ok (b, some address) => (d, address) :: b.placements ds
    | .ok (b, none) => b.placements ds
    | .error _ => []

/-- Instructions behind the placements get no address. -/
theorem placements_append_of_isInstruction {es : List Directive}
    (hes : ∀ d ∈ es, d.isInstruction = true) (a : Assembler) (ds : List Directive) :
    a.placements (ds ++ es) = a.placements ds := by
  induction ds generalizing a with
  | nil =>
    rw [List.nil_append, placements]
    induction es generalizing a with
    | nil => rfl
    | cons d es ih =>
      obtain ⟨hd, hrest⟩ := List.forall_mem_cons.mp hes
      cases d with
      | label | data | string | reserve => contradiction
      | _ => exact ih hrest _
  | cons d ds ih =>
    rw [List.cons_append, placements, placements]
    split
    · rw [ih]
    · rw [ih]
    · rfl

/-- The content of a placement stands at its address, at a bound or above it. -/
def Placed (memory : List UInt8) (bound : Nat) (p : Directive × Int32) : Prop :=
  ∃ front back, memory = front ++ (p.1.content ++ back) ∧ p.2.toInt = front.length ∧
    bound ≤ front.length

theorem Placed.mono {memory : List UInt8} {bound bound' : Nat} {p : Directive × Int32}
    (h : Placed memory bound p) (hle : bound' ≤ bound) : Placed memory bound' p := by
  obtain ⟨front, back, hmemory, haddress, hbound⟩ := h
  exact ⟨front, back, hmemory, haddress, Nat.le_trans hle hbound⟩

/-- **Placements follow one another**: each is in the memory that is there in the end, behind the
null word and all that was placed before. -/
theorem placements_emitAll {a b : Assembler} {ds : List Directive} (h : a.emitAll ds = .ok b)
    (hnonneg : ∀ d ∈ ds, 0 ≤ d.reserved.toInt) (hbss : 0 ≤ a.bss.toInt)
    (hsum : a.bss.toInt + (ds.map fun d => d.reserved.toInt).sum < 2 ^ 31) (hnull : a.HasNull)
    (hlen : b.memory.length < 2 ^ 31) :
    a.memory <+: b.memory ∧ (a.placements ds).map Prod.fst = ds.filter isPlacement ∧
      (∀ p ∈ a.placements ds, Placed b.memory (max 4 a.memory.length) p) ∧
      (a.placements ds).Pairwise fun p q => p.2.toInt + (p.1.content.length : Int) ≤ q.2.toInt := by
  induction ds generalizing a with
  | nil =>
    obtain rfl := Except.ok.inj h
    exact ⟨List.prefix_rfl, rfl, by simp [placements], .nil⟩
  | cons d ds ih =>
    obtain ⟨c, r, hemit, hrest⟩ := emitAll_cons h
    have hd := hnonneg d (.head ds)
    have htail := sum_reserved_nonneg fun e he => hnonneg e (.tail d he)
    rw [List.map_cons, List.sum_cons] at hsum
    have hc : c.bss.toInt = a.bss.toInt + d.reserved.toInt := by
      rw [(emit_cases hemit).2.1, Bytes.toInt_add_of_lt (by omega) (by omega)]
    have hrest := ih hrest (fun e he => hnonneg e (.tail d he)) (by omega) (by omega)
    rw [placements, hemit]
    obtain ⟨hplacement, rfl, hmemory⟩ | ⟨hplacement, rfl, hmemory⟩ :=
      memory_emit hemit hbss hd (by omega)
    · have hnull' : c.HasNull := by rwa [HasNull, hmemory]
      obtain ⟨hgrows, hmap, hplaced, hpairwise⟩ := hrest hnull'
      rw [hmemory] at hgrows hplaced
      rw [List.filter_cons_of_neg (by simp [hplacement])]
      exact ⟨hgrows, hmap, hplaced, hpairwise⟩
    · obtain ⟨hgrows, hfour⟩ := memory_reserveNull hbss hnull
      have hlen' := congrArg List.length hmemory
      rw [List.length_append] at hlen'
      have hnull' : c.HasNull := .inr (by omega)
      obtain ⟨⟨back, hback⟩, hmap, hplaced, hpairwise⟩ := hrest hnull'
      have hmemory' : b.memory = a.reserveNull.memory ++ (d.content ++ back) := by
        rw [← hback, hmemory, List.append_assoc]
      have hfront : a.reserveNull.memory.length < 2 ^ 31 := by
        rw [hmemory', List.length_append] at hlen
        omega
      have haddress : (Int32.ofNat a.reserveNull.memory.length).toInt
          = a.reserveNull.memory.length := Int32.toInt_ofNat_of_lt hfront
      have hle := hgrows.length_le
      refine ⟨?_, ?_, ?_, ?_⟩
      · rw [hmemory']
        exact hgrows.trans (List.prefix_append _ _)
      · rw [List.filter_cons_of_pos hplacement, List.map_cons, hmap]
      · refine List.forall_mem_cons.mpr ⟨⟨_, back, hmemory', haddress, by omega⟩, fun p hp => ?_⟩
        exact (hplaced p hp).mono (by omega)
      · refine List.pairwise_cons.mpr ⟨fun p hp => ?_, hpairwise⟩
        obtain ⟨front, -, -, hfront', hbound⟩ := hplaced p hp
        have hc := Nat.le_trans (Nat.le_max_right 4 _) hbound
        dsimp only
        omega

/-! ## Loading -/

/-- The initialized data of an assembled image: data words and literals. -/
theorem toBytes_dataBytes {a : Assembler} {code image : ByteArray}
    (himage : (a.header (Int32.ofNat code.size)).encode ++ code ++ a.data ++ a.lit = image)
    (hsize : image.size ≤ 4 * 2 ^ 20) :
    Bytes.toBytes ((a.header (Int32.ofNat code.size)).dataBytes image)
      = Bytes.toBytes a.data ++ Bytes.toBytes a.lit := by
  have hsum : image.size = 32 + code.size + a.data.size + a.lit.size := by simp [← himage]
  have toInt : ∀ {n : Nat}, n ≤ 4 * 2 ^ 20 → (Int32.ofNat n).toInt = n := fun hn =>
    Int32.toInt_ofNat_of_lt (by omega)
  have hdata : (Int32.ofNat a.data.size).toInt = a.data.size := toInt (by omega)
  have hlit : (Int32.ofNat a.lit.size).toInt = a.lit.size := toInt (by omega)
  have hoffset : (Int32.ofNat Header.byteSize + Int32.ofNat code.size).toInt = 32 + code.size :=
    toInt_dataOffset (by omega)
  have hlength : (Int32.ofNat a.data.size + Int32.ofNat a.lit.size).toInt
      = a.data.size + a.lit.size := by
    rw [Bytes.toInt_add_of_lt (by omega) (by omega), hdata, hlit]
  have hfront : ((32 : Int) + code.size).toNat = 32 + code.size := by omega
  have hboth : ((a.data.size : Int) + a.lit.size).toNat = a.data.size + a.lit.size := by omega
  rw [Header.dataBytes, Header.sectionBytes, header]
  dsimp only
  rw [hoffset, hlength, hfront, hboth, Bytes.toBytes_extract, List.drop_take,
    Nat.add_sub_cancel_left, ← himage, Bytes.toBytes_append, Bytes.toBytes_append,
    Bytes.toBytes_append, List.append_assoc, List.drop_left' (by simp), List.take_of_length_le
    (by simp)]

/-- **The memory is the bottom of the arena**, with zeros behind it and the program stack above
it. -/
theorem exists_arena {a : Assembler} {image : ByteArray} {name : String} {m : Module}
    (hbss : 0 ≤ a.bss.toInt) (hbss' : a.bss.toInt + 64 * 2 ^ 10 ≤ 10485760)
    (himage : a.image = .ok image) (hm : Module.load name image = .ok m) :
    (∃ n, Bytes.toBytes m.arena.bytes = a.memory ++ List.replicate n 0) ∧
      a.memory.length + 0x10000 ≤ m.arena.size.toNat := by
  obtain ⟨hfits, -⟩ := Module.exists_load_iff.mp ⟨m, hm⟩
  obtain ⟨-, hparse, harena, -⟩ := Module.load_eq_ok_iff.mp hm
  rw [Assembler.image] at himage
  split at himage
  case h_2 => contradiction
  rename_i code hcode
  have himage := Except.ok.inj himage
  have hsize := hfits.size_le
  have hdecode := decode_assembled himage
  have hheader : m.header = a.header (Int32.ofNat code.size) :=
    (Except.ok.inj (hparse.symm.trans (Header.parse_of_fits hfits))).trans hdecode
  have hacceptable := hfits.acceptable
  rw [hdecode] at hacceptable
  have hdata := toBytes_dataBytes himage hsize
  have hsum : image.size = 32 + code.size + a.data.size + a.lit.size := by simp [← himage]
  obtain ⟨b, hnew, hsegments, hzeros⟩ := Header.exists_new_arenaSize hacceptable hsize
  rw [hheader, Header.buildArena, hnew] at harena
  have hsegments' : (a.data.size : Int) + a.lit.size + (a.bss.toInt + 64 * 2 ^ 10)
      ≤ b.mask.toNat + 1 := by
    rw [header, toInt_add_stackReserve hbss hbss', Int32.toInt_ofNat_of_lt (by omega),
      Int32.toInt_ofNat_of_lt (by omega)] at hsegments
    exact hsegments
  have hlength : ((a.header (Int32.ofNat code.size)).dataBytes image).size
      = a.data.size + a.lit.size := by
    rw [← Bytes.length_toBytes, hdata, List.length_append]
    rfl
  have hroom : 0 + ((a.header (Int32.ofNat code.size)).dataBytes image).size ≤ b.bytes.size := by
    rw [hzeros, Bytes.size_zeros, hlength]
    omega
  have hwrite := Arena.bytes_write hroom
  rw [← Except.ok.inj harena]
  refine ⟨⟨b.mask.toNat + 5 - a.data.size - a.lit.size - a.bss.toInt.toNat, ?_⟩, ?_⟩
  · have hcount : b.mask.toNat + 5 - (0 + (a.data.size + a.lit.size)) = a.bss.toInt.toNat
        + (b.mask.toNat + 5 - a.data.size - a.lit.size - a.bss.toInt.toNat) := by
      omega
    rw [hwrite, Bytes.toBytes_overwrite, hdata, hzeros, Bytes.toBytes_zeros, hlength,
      List.take_zero, List.nil_append, List.drop_replicate, hcount,
      ← List.replicate_append_replicate, memory, ← List.append_assoc]
  · rw [Arena.toNat_size, Arena.mask_write, memory, List.length_append, List.length_append,
      List.length_replicate, Bytes.length_toBytes, Bytes.length_toBytes]
    omega

/-- **Placements in a loaded module.** Take directives that are used as they are meant to be and are
placed in an allowed order, and an image that is not too long. Every placement gets an address
behind the null word; no range starts before the one that was handed out earlier has ended; in the
arena that the module starts with, the range of a placement holds its content, and for a literal
without a zero byte that is what a host reads as a string; and all ranges end below the 64 KiB that
a machine reserves for its program stack. -/
theorem placements_loaded {ds : List Directive} {a : Assembler} (hds : WellUsed ds)
    (ha : ({} : Assembler).emitAll ds = .ok a) (name : String) (limit : UInt64) :
    ∃ image, a.image = .ok image ∧ (image.size ≤ 4 * 2 ^ 20 →
      ∃ m, Module.load name image = .ok m ∧
        ((placements {} ds).map Prod.fst = ds.filter isPlacement) ∧
        ((placements {} ds).Pairwise fun p q =>
          p.2.toInt + (p.1.content.length : Int) ≤ q.2.toInt) ∧
        (Machine.create m limit).status.stackBottom.toNat + 0x10000 = m.arena.size.toNat ∧
        ∀ d address, (d, address) ∈ placements {} ds →
          4 ≤ address.toInt ∧
          ((Bytes.toBytes m.arena.bytes).drop address.toInt.toNat).take d.content.length
            = d.content ∧
          address.toInt + (d.content.length : Int)
            ≤ (Machine.create m limit).status.stackBottom.toNat ∧
          ∀ bytes, d = .string bytes → 0 ∉ Bytes.toBytes bytes →
            (Machine.create m limit).cString address.toUInt32
              = (Machine.create m limit, .ok bytes)) := by
  obtain ⟨I, image, hI, himage, hload⟩ := exists_linked hds ha
  refine ⟨image, himage, fun hsize => ?_⟩
  obtain ⟨m, hm, -, -⟩ := hload hsize name
  obtain ⟨hbss, hbss'⟩ := bss_of_wellUsed hds ha
  obtain ⟨⟨n, hbytes⟩, hroom⟩ := exists_arena hbss hbss' himage hm
  have hnonneg : ∀ d ∈ ds, 0 ≤ d.reserved.toInt := fun d hd => (hds.proper d hd).reserved_nonneg
  have hle := hds.reserved_le
  have hzero : ({} : Assembler).bss.toInt = 0 := rfl
  have hlt : m.arena.size.toNat ≤ 2 ^ 24 := by
    have hbound := Module.size_arena_le hm
    rw [m.arena.size_bytes] at hbound
    rw [Arena.toNat_size]
    omega
  obtain ⟨-, hmap, hplaced, hpairwise⟩ := placements_emitAll ha hnonneg (by omega) (by omega)
    (.inl rfl) (by omega)
  have hbottom : (Machine.create m limit).status.stackBottom.toNat + 0x10000
      = m.arena.size.toNat := by
    have hstack : Machine.stackSize ≤ m.arena.size :=
      UInt32.le_iff_toNat_le.mpr (show 0x10000 ≤ m.arena.size.toNat by omega)
    have hsub : (Machine.create m limit).status.stackBottom.toNat = m.arena.size.toNat - 0x10000 :=
      UInt32.toNat_sub_of_le _ _ hstack
    omega
  refine ⟨m, hm, hmap, hpairwise, hbottom, fun d address hd => ?_⟩
  obtain ⟨front, back, hmemory, haddress, hbound⟩ := hplaced _ hd
  dsimp only at hmemory haddress
  have hfront : address.toInt.toNat = front.length := by omega
  have hdrop : (Bytes.toBytes m.arena.bytes).drop front.length
      = d.content ++ (back ++ List.replicate n 0) := by
    rw [hbytes, hmemory, List.append_assoc, List.drop_left, List.append_assoc]
  have hlength := congrArg List.length hmemory
  rw [List.length_append, List.length_append] at hlength
  refine ⟨by omega, ?_, by omega, ?_⟩
  · rw [hfront, hdrop, List.take_left]
  · rintro bytes rfl hfree
    have htoNat : address.toUInt32.toNat = front.length := by
      have := Bytes.toNat_toUInt32 (x := address) (by omega)
      omega
    have hindex : m.arena.index address.toUInt32 = front.length := by
      rw [Arena.index_of_le, htoNat]
      rw [Arena.toNat_size] at hroom
      omega
    rw [content, List.append_assoc] at hdrop
    have hzeroFrom := Bytes.zeroFrom_of_drop_eq hdrop hfree
    rw [Bytes.length_toBytes] at hzeroFrom
    rw [Machine.cString, Machine.create]
    dsimp only
    rw [Arena.cString, hindex, hzeroFrom, Bytes.extract_of_drop_eq hdrop]

/-- The literal of the sample is what a host reads at its address. -/
theorem placements_loaded_sampleDirectives :
    ∃ a image m address, ({} : Assembler).emitAll sampleDirectives = .ok a ∧
      a.image = .ok image ∧ Module.load "sample" image = .ok m ∧
      (.string "done".toUTF8, address) ∈ placements {} sampleDirectives ∧ 4 ≤ address.toInt ∧
      (Machine.create m 0).cString address.toUInt32
        = (Machine.create m 0, .ok "done".toUTF8) := by
  obtain ⟨a, image, ha, himage, hsize⟩ := exists_image_sampleDirectives
  obtain ⟨image', himage', hload⟩ := placements_loaded wellUsed_sampleDirectives ha "sample" 0
  obtain rfl : image = image' := Except.ok.inj (himage.symm.trans himage')
  obtain ⟨m, hm, hmap, -, -, hplaced⟩ := hload hsize
  have hliteral : .string "done".toUTF8 ∈ (placements {} sampleDirectives).map Prod.fst := by
    rw [hmap]
    exact List.mem_filter.mpr ⟨by simp [sampleDirectives], rfl⟩
  obtain ⟨⟨d, address⟩, hmem, rfl⟩ := List.mem_map.mp hliteral
  obtain ⟨hfour, -, -, hstring⟩ := hplaced _ _ hmem
  exact ⟨a, image, m, address, ha, himage, hm, hmem, hfour, hstring _ rfl (by decide +kernel)⟩

end Assembler

end BytecodeHost
