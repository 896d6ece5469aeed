import BytecodeHost.Proofs.Image.Placement
import BytecodeHost.Proofs.Machine.Answering

/-!
# Printing

A module that prints hands over the address of a string, and the host reads from there up to the
next zero byte. Literals are placed at the bottom of the arena and frames at the top, with the
program stack between them, so a literal that was there when the module was loaded is still there
when it is printed (`Arena.HasLiteral.of_agreesOutside`).

The module that is proved to print has one stretch of code for each string. All of them do the same
from the same frame, so the induction is over the strings, and what carries it is that a print
changes three words of the frame at most.

## Main definitions

* `Arena.HasLiteral` — a string in front of a bound
* `StandardTrap.Appends` — a writer that does not fail
* `Printing.directives`, `Printing.program` — the module that prints strings

## Main results

* `Arena.toBytes_cString` — what a host reads at an address
* `StandardTrap.run_print` — what the print trap does
* `Printing.passage_print`, `Printing.exists_passage` — the code that prints a string, or all
* `Printing.print_strings` — the module prints its strings
-/

namespace BytecodeHost

/-! ## Strings in the arena -/

namespace Arena

/-- A host reads from a masked address up to the next zero byte, or to the end of the buffer. -/
theorem toBytes_cString (a : Arena) (address : UInt32) :
    Bytes.toBytes (a.cString address)
      = ((Bytes.toBytes a.bytes).drop (address &&& a.mask).toNat).takeWhile (· ≠ 0) := by
  have hle := a.index_le address
  have hsize := a.size_bytes
  exact Bytes.toBytes_extract_zeroFrom (by omega)

/-- A string and its zero byte stand at an address, in front of a bound. -/
structure HasLiteral (a : Arena) (bound : Nat) (address : UInt32) (s : ByteArray) : Prop where
  /-- The address needs no masking. -/
  address_le : address.toNat ≤ a.mask.toNat
  /-- The bytes are there. -/
  holds : Bytes.toBytes s ++ [0] <+: ((Bytes.toBytes a.bytes).take bound).drop address.toNat

variable {a b : Arena} {bound start stop : Nat} {address : UInt32} {s : ByteArray}

theorem HasLiteral.mono {bound' : Nat} (h : a.HasLiteral bound address s) (hle : bound ≤ bound') :
    a.HasLiteral bound' address s where
  address_le := h.address_le
  holds := by
    have hholds := h.holds
    rw [List.drop_take] at hholds ⊢
    exact hholds.trans (List.take_prefix_take_left (by omega))

/-- A string stays where nothing is changed. -/
theorem HasLiteral.of_agreesOutside (h : a.HasLiteral bound address s)
    (h' : AgreesOutside start stop a b) (hbound : bound ≤ start) :
    b.HasLiteral bound address s where
  address_le := by
    rw [h'.mask]
    exact h.address_le
  holds := by
    rw [(h'.mono hbound (Nat.le_refl stop)).take_toBytes]
    exact h.holds

/-- A host reads the string. -/
theorem HasLiteral.cString (h : a.HasLiteral bound address s) (hfree : 0 ∉ Bytes.toBytes s) :
    a.cString address = s := by
  have hprefix : Bytes.toBytes s ++ [0] <+: (Bytes.toBytes a.bytes).drop address.toNat := by
    have hholds := h.holds
    rw [List.drop_take] at hholds
    exact hholds.trans (List.take_prefix _ _)
  obtain ⟨rest, hrest⟩ := hprefix
  have hindex := index_of_le h.address_le
  have hne : ∀ x ∈ Bytes.toBytes s, decide (x ≠ 0) = true := fun x hx =>
    decide_eq_true fun hzero => hfree (hzero ▸ hx)
  rw [← Bytes.toBytes_inj, toBytes_cString,
    show (address &&& a.mask).toNat = address.toNat from hindex,
    ← hrest, List.append_assoc, List.takeWhile_append_of_pos hne]
  exact List.append_nil _

end Arena

/-! ## The print trap -/

variable {σ : Type}

namespace StandardTrap

/-- A writer that does not fail: it appends what it is given to what was written so far, and leaves
the machine alone. -/
def Appends (write : Writer σ) (output : σ → ByteArray) : Prop :=
  ∀ bytes s, ∃ s', write bytes s = .done s' (.ok ()) ∧ output s' = output s ++ bytes

/-- A writer into a buffer. -/
def toBuffer : Writer ByteArray := fun bytes buffer => .done (buffer ++ bytes) (.ok ())

theorem appends_toBuffer : Appends toBuffer id :=
  fun bytes buffer => ⟨buffer ++ bytes, rfl, rfl⟩

variable {write : Writer σ} (clock : HostM σ Int64) {output : σ → ByteArray}

/-- **What the print trap does**: it writes the string at its argument, cut to 8192 bytes, and
answers zero. The machine stays as it is. -/
theorem run_print (hwrite : Appends write output) {words : Array UInt32}
    (hnumber : words.getD 0 0 = 0) (l : Loaded) (s : σ) :
    ∃ s', output s' = output s ++ (l.arena.cString (words.getD 1 0)).extract 0 8192 ∧
      ∀ callBack (m : Machine), m.loaded = some l →
        ((Registry.standard write clock).host words s).run callBack m = some (m, s', .value 0) := by
  obtain ⟨s', hs', houtput⟩ := hwrite ((l.arena.cString (words.getD 1 0)).extract 0 8192) s
  refine ⟨s', houtput, fun callBack m hl => ?_⟩
  have hread : m.cString (arg words 1) = (m, .ok (l.arena.cString (words.getD 1 0))) := by
    rw [Machine.cString, hl]
    rfl
  have hfind : (Registry.standard write clock).find? (words.getD 0 0).toInt32
      = some (print write) := by
    rw [hnumber]
    rfl
  rw [Registry.host_of_find? rfl hfind]
  simp only [print, HostM.run_bind, run_readString, hread, Option.bind_some, maxPrintLength, hs',
    Script.run, HostM.run_pure, written]

end StandardTrap

namespace Printing

open StandardTrap

/-! ## The module -/

/-- A string is printed: its address is the argument of trap zero, and the answer is dropped. -/
def print (address : Int32) : List Directive :=
  [.imm Opcode.constant.toByte address, .arg 8, .trap 0, .op Opcode.call.toByte,
   .op Opcode.pop.toByte]

/-- Where the literals of strings are placed. -/
def addresses (strings : List ByteArray) : List Int32 :=
  (Assembler.placements {} (strings.map .string)).map Prod.snd

/-- The code that prints the strings at some addresses and returns zero. -/
def code (addresses : List Int32) : List Directive :=
  .imm Opcode.enter.toByte 16 :: (addresses.flatMap print ++
    [.imm Opcode.constant.toByte 0, .imm Opcode.leave.toByte 16])

/-- The module that prints strings. -/
def directives (strings : List ByteArray) : List Directive :=
  strings.map .string ++ code (addresses strings)

/-- The instructions that print the string at an address. -/
def printing (address : UInt32) : List Instruction :=
  [⟨.constant, address⟩, ⟨.arg, 8⟩, ⟨.constant, returnMarker⟩, ⟨.call, 0⟩, ⟨.pop, 0⟩]

/-- The program of the module. -/
def program (addresses : List UInt32) : List Instruction :=
  ⟨.enter, 16⟩ :: (addresses.flatMap printing ++ [⟨.constant, 0⟩, ⟨.leave, 16⟩])

/-! ## The code -/

section

variable {write : Writer σ} {output : σ → ByteArray} (clock : HostM σ Int64)
variable (hwrite : Appends write output)
variable {p : Program} {I : List Instruction} {status : Status} (hp : p.Linked I)
variable (hcount : status.instructionCount.toUInt32.toNat = I.length)
variable {a : Arena} {frame : UInt32} {k : Nat}
include hwrite hp hcount

/-- The code that prints a string writes it, and changes nothing but words of the frame. -/
theorem passage_print {address : UInt32} {bytes : ByteArray}
    (hcode : Program.Stands I k (printing address))
    (hliteral : a.HasLiteral frame.toNat address bytes) (hfree : 0 ∉ Bytes.toBytes bytes)
    (hsize : bytes.size ≤ 8192) (hframe : frame.toNat + 12 ≤ a.mask.toNat + 1)
    (hlarge : 128 ≤ a.size.toNat) (s : σ) :
    ∃ a' s', Passage (Registry.standard write clock).host p
        ⟨status, s, ⟨a, k, frame, [Operands.sentinel]⟩⟩
        ⟨{ status with programStack := frame - 4 }, s',
          ⟨a', k + 5, frame, [Operands.sentinel]⟩⟩ ∧
      output s' = output s ++ bytes ∧
      Arena.AgreesOutside frame.toNat (frame.toNat + 12) a a' := by
  have hindex : a.index (frame + 8) = frame.toNat + 8 :=
    Arena.index_add_of_le (n := 8) (by omega)
  have hargument : Arena.AgreesOutside frame.toNat (frame.toNat + 12) a
      (a.store4 (frame + 8) address) := .store4 a address (by omega) (by omega)
  have hmark : Arena.AgreesOutside frame.toNat (frame.toNat + 8) (a.store4 (frame + 8) address)
      ((a.store4 (frame + 8) address).markTrap frame (p.offset (k + 4)) returnMarker) :=
    agreesOutside_markTrap (by rw [Arena.mask_store4]; omega) _ _
  have hagrees := hargument.trans (hmark.mono (Nat.le_refl _) (by omega))
  have hblock : Block p status ⟨a, k, frame, [Operands.sentinel]⟩
      ⟨a.store4 (frame + 8) address, k + 3, frame, [returnMarker, Operands.sentinel]⟩ :=
    ((block_constant hp hcount hcode.head (by decide)).trans
      (block_argument hp hcount hcode.tail.head)).trans
      (block_constant hp hcount hcode.tail.tail.head (by decide))
  generalize hb : (a.store4 (frame + 8) address).markTrap frame (p.offset (k + 4)) returnMarker = b
    at hmark hagrees
  have hwords : (b.loadWords (frame + 4) trapWords #[]).getD 0 0 = 0 := by
    rw [getD_loadWords _ _ (by decide), ← hb]
    exact Arena.load4_store4 _ _ _
  have hword : (b.loadWords (frame + 4) trapWords #[]).getD 1 0 = address := by
    rw [getD_loadWords _ _ (by decide), ← hb]
    exact (Arena.load4_markTrap_argument (a := a.store4 (frame + 8) address) hlarge
      (Nat.le_refl 1) (by decide)).trans (Arena.load4_store4 a (frame + 8) address)
  obtain ⟨s', houtput, hrun⟩ := run_print clock hwrite hwords ⟨p, b⟩ s
  rw [hword, (hliteral.of_agreesOutside hagrees (Nat.le_refl _)).cString hfree,
    Bytes.extract_of_size_le hsize] at houtput
  have htrap : Passage (Registry.standard write clock).host p
      ⟨status, s, ⟨a.store4 (frame + 8) address, k + 3, frame, [returnMarker, Operands.sentinel]⟩⟩
      ⟨{ status with programStack := frame - 4 }, s',
        ⟨b, k + 4, frame, [(0 : Int64).toInt32.toUInt32, Operands.sentinel]⟩⟩ :=
    passage_trap hp hcount hcode.tail.tail.tail.head (by decide)
      (fun fuel meter => by rw [hb]; exact hrun _ _ rfl) (hb ▸ Arena.load4_markTrap_frame hlarge)
  have hcount' : ({ status with
      programStack := frame - 4 } : Status).instructionCount.toUInt32.toNat = I.length := hcount
  have hpop : Block p { status with programStack := frame - 4 }
      ⟨b, k + 4, frame, [(0 : Int64).toInt32.toUInt32, Operands.sentinel]⟩
      ⟨b, k + 5, frame, [Operands.sentinel]⟩ :=
    block_pop hp hcount' hcode.tail.tail.tail.tail.head
  exact ⟨b, s', ((hblock.passage s).trans htrap).trans (hpop.passage s'), houtput, hagrees⟩

/-- **The code that prints strings writes all of them**, one after the other. -/
theorem exists_passage {addresses : List UInt32} {strings : List ByteArray}
    (hliterals : List.Forall₂ (a.HasLiteral frame.toNat) addresses strings)
    (hstrings : ∀ b ∈ strings, 0 ∉ Bytes.toBytes b ∧ b.size ≤ 8192)
    (hcode : Program.Stands I k (addresses.flatMap printing))
    (hframe : frame.toNat + 12 ≤ a.mask.toNat + 1) (hlarge : 128 ≤ a.size.toNat) (s : σ) :
    ∃ a' s' stack, Passage (Registry.standard write clock).host p
        ⟨status, s, ⟨a, k, frame, [Operands.sentinel]⟩⟩
        ⟨{ status with programStack := stack }, s',
          ⟨a', k + (addresses.flatMap printing).length, frame, [Operands.sentinel]⟩⟩ ∧
      Bytes.toBytes (output s') = Bytes.toBytes (output s) ++ strings.flatMap Bytes.toBytes ∧
      Arena.AgreesOutside frame.toNat (frame.toNat + 12) a a' := by
  induction addresses generalizing strings a k s status with
  | nil =>
    cases hliterals
    exact ⟨a, s, status.programStack, .refl, (List.append_nil _).symm, .refl a⟩
  | cons address addresses ih =>
    obtain _ | ⟨hliteral, hliterals⟩ := hliterals
    obtain ⟨⟨hfree, hsize⟩, hstrings⟩ := List.forall_mem_cons.mp hstrings
    rw [List.flatMap_cons] at hcode ⊢
    obtain ⟨b, t, hfirst, houtput, hagrees⟩ := passage_print clock hwrite hp hcount hcode.left
      hliteral hfree hsize hframe hlarge s
    have hliterals' := hliterals.imp fun _ _ h => h.of_agreesOutside hagrees (Nat.le_refl _)
    have hcount' : ({ status with
        programStack := frame - 4 } : Status).instructionCount.toUInt32.toNat = I.length := hcount
    obtain ⟨a', s', stack, hrest, houtput', hagrees'⟩ := ih hcount' hliterals' hstrings hcode.right
      (by rw [hagrees.mask]; exact hframe) (by rw [Arena.size, hagrees.mask]; exact hlarge) t
    refine ⟨a', s', stack, ?_, ?_, hagrees.trans hagrees'⟩
    · rw [List.length_append, ← Nat.add_assoc]
      exact hfirst.trans hrest
    · rw [houtput', houtput, Bytes.toBytes_append, List.flatMap_cons, List.append_assoc]

/-- The program writes all strings and returns zero. -/
theorem exists_passage_program {addresses : List UInt32} {strings : List ByteArray}
    (hI : I = program addresses) (hback : a.load4 frame = returnMarker)
    (hliterals : List.Forall₂ (a.HasLiteral (frame.toNat - 16)) addresses strings)
    (hstrings : ∀ b ∈ strings, 0 ∉ Bytes.toBytes b ∧ b.size ≤ 8192)
    (hbelow : 16 ≤ frame.toNat) (habove : frame.toNat ≤ a.mask.toNat) (hlarge : 128 ≤ a.size.toNat)
    (s : σ) :
    ∃ a' s' stack spot, Passage (Registry.standard write clock).host p
        ⟨status, s, ⟨a, 0, frame, [Operands.sentinel]⟩⟩
        ⟨{ status with programStack := stack }, s', spot⟩ ∧
      spot.EndsWith p { status with programStack := stack } a' 0 none ∧
      Bytes.toBytes (output s') = Bytes.toBytes (output s) ++ strings.flatMap Bytes.toBytes ∧
      Arena.AgreesOutside (frame.toNat - 16) frame.toNat a a' := by
  subst hI
  have hown : (frame - 16).toNat = frame.toNat - 16 :=
    UInt32.toNat_sub_of_le _ _ (UInt32.le_iff_toNat_le.mpr hbelow)
  have hstands : Program.Stands (program addresses) 0 (⟨.enter, 16⟩ ::
      (addresses.flatMap printing ++ [⟨.constant, 0⟩, ⟨.leave, 16⟩])) := .all _
  have hindex : a.index frame = frame.toNat := Arena.index_of_le habove
  obtain ⟨a', s', stack, hpassage, houtput, hagrees⟩ := exists_passage clock hwrite hp hcount
    (hown ▸ hliterals) hstrings hstands.tail.left (by omega) hlarge s
  let k := 0 + 1 + (addresses.flatMap printing).length
  have hcount' : ({ status with programStack := stack } : Status).instructionCount.toUInt32.toNat
      = (program addresses).length := hcount
  have hconstant : Block p { status with programStack := stack }
      ⟨a', k, frame - 16, [Operands.sentinel]⟩
      ⟨a', k + 1, frame - 16, [0, Operands.sentinel]⟩ :=
    block_constant hp hcount' hstands.tail.right.head (by decide)
  have hleave : Spot.EndsWith p { status with programStack := stack }
      ⟨a', k + 1, frame - 16, [0, Operands.sentinel]⟩ a' 0 none :=
    endsWith_of_leave hp hcount' hstands.tail.right.tail.head
      (by rw [UInt32.sub_add_cancel, hagrees.load4 (.inr (by omega)), hback])
  exact ⟨a', s', stack, _, ((block_enter hp hcount hstands.head).passage s).trans hpassage,
    hconstant.endsWith hleave, houtput, hagrees.mono (by omega) (by omega)⟩

end

/-! ## Assembling -/

theorem mem_code {addresses : List Int32} {d : Directive} (h : d ∈ code addresses) :
    d.isInstruction = true ∧ ∀ ds, Directive.Proper ds d := by
  have himm : ∀ {op : Opcode} {value : Int32}, op.immediateWidth = 4 → op.isBranch = false →
      ∀ ds, Directive.Proper ds (.imm op.toByte value) := fun hwidth hbranch ds =>
    .imm hwidth fun h => by rw [hbranch] at h; contradiction
  rw [code, List.mem_cons, List.mem_append] at h
  obtain rfl | h | h := h
  · exact ⟨rfl, himm rfl rfl⟩
  · obtain ⟨address, -, h⟩ := List.mem_flatMap.mp h
    rw [print] at h
    simp only [List.mem_cons, List.not_mem_nil, or_false] at h
    obtain rfl | rfl | rfl | rfl | rfl := h
    · exact ⟨rfl, himm rfl rfl⟩
    · exact ⟨rfl, fun _ => .arg _⟩
    · exact ⟨rfl, fun _ => .trap _⟩
    · exact ⟨rfl, fun _ => .op rfl⟩
    · exact ⟨rfl, fun _ => .op rfl⟩
  · simp only [List.mem_cons, List.not_mem_nil, or_false] at h
    obtain rfl | rfl := h <;> exact ⟨rfl, himm rfl rfl⟩

theorem instructions_directives (strings : List ByteArray) :
    Directive.instructions (directives strings) = code (addresses strings) := by
  have hliterals : (strings.map Directive.string).filter Directive.isInstruction = [] := by
    rw [List.filter_eq_nil_iff]
    intro d hd
    obtain ⟨bytes, -, rfl⟩ := List.mem_map.mp hd
    exact Bool.false_ne_true
  rw [Directive.instructions, directives, List.filter_append, hliterals, List.nil_append]
  exact List.filter_eq_self.mpr fun d hd => (mem_code hd).1

theorem wellUsed_directives (strings : List ByteArray) :
    Directive.WellUsed (directives strings) where
  proper d hd := by
    obtain hd | hd := List.mem_append.mp hd
    · obtain ⟨bytes, -, rfl⟩ := List.mem_map.mp hd
      exact .string bytes
    · exact (mem_code hd).2 _
  nonempty := by
    rw [instructions_directives]
    exact Nat.succ_pos _
  reserved_le := by
    rw [Directive.sum_reserved_eq_zero]
    · decide
    · intro d hd
      obtain hd | hd := List.mem_append.mp hd
      · obtain ⟨bytes, -, rfl⟩ := List.mem_map.mp hd
        rfl
      · exact Directive.reserved_of_isInstruction (mem_code hd).1

theorem denotes_code (ds : List Directive) (addresses : List Int32) :
    List.Forall₂ (Directive.Denotes ds) (code addresses)
      (program (addresses.map Int32.toUInt32)) := by
  refine .cons .imm (List.rel_append ?_ (.cons .imm (.cons .imm .nil)))
  induction addresses with
  | nil => exact .nil
  | cons address addresses ih =>
    exact .cons .imm <| .cons .arg <| .cons .trap <| .cons .op <| .cons .op ih

/-- Placements of literals, one by one. -/
theorem forall₂_of_placements {R : UInt32 → ByteArray → Prop} {ps : List (Directive × Int32)}
    {strings : List ByteArray} (hmap : ps.map Prod.fst = strings.map .string)
    (hR : ∀ bytes address, (.string bytes, address) ∈ ps → R address.toUInt32 bytes) :
    List.Forall₂ R ((ps.map Prod.snd).map Int32.toUInt32) strings := by
  induction strings generalizing ps with
  | nil =>
    obtain rfl := List.map_eq_nil_iff.mp hmap
    exact .nil
  | cons bytes strings ih =>
    obtain ⟨⟨d, address⟩, ps, rfl, rfl, hrest⟩ := List.map_eq_cons_iff.mp hmap
    exact .cons (hR bytes address (.head ps)) (ih hrest fun bytes address h => hR _ _ (.tail _ h))

/-- The literals of the strings stand at their addresses, in front of the program stack. -/
theorem hasLiteral_addresses {strings : List ByteArray} {a : Assembler} {image : ByteArray}
    {name : String} {m : Module} (ha : ({} : Assembler).emitAll (directives strings) = .ok a)
    (himage : a.image = .ok image) (hm : Module.load name image = .ok m) :
    0x10000 ≤ m.arena.size.toNat ∧
      List.Forall₂ (m.arena.HasLiteral (m.arena.size.toNat - 0x10000))
        ((addresses strings).map Int32.toUInt32) strings := by
  have hds := wellUsed_directives strings
  obtain ⟨hbss, hbss'⟩ := Assembler.bss_of_wellUsed hds ha
  obtain ⟨⟨n, hbytes⟩, hroom⟩ := Assembler.exists_arena hbss hbss' himage hm
  obtain ⟨-, j, hj, hmask⟩ := Module.size_arena hm
  have hpow : 2 ^ j ≤ 2 ^ 24 := Nat.pow_le_pow_right (by omega) hj
  have hsize := m.arena.toNat_size
  have hle := hds.reserved_le
  have hzero : ({} : Assembler).bss.toInt = 0 := rfl
  obtain ⟨-, hmap, hplaced, -⟩ := Assembler.placements_emitAll ha
    (fun d hd => (hds.proper d hd).reserved_nonneg) (by omega) (by omega) (.inl rfl) (by omega)
  have hliterals : (directives strings).filter Directive.isPlacement = strings.map .string := by
    have hcode : (code (addresses strings)).filter Directive.isPlacement = [] := by
      rw [List.filter_eq_nil_iff]
      intro d hd
      have hinstruction := (mem_code hd).1
      cases d with
      | data | string | reserve => contradiction
      | _ => exact Bool.false_ne_true
    rw [directives, List.filter_append, hcode, List.append_nil, List.filter_eq_self]
    intro d hd
    obtain ⟨bytes, -, rfl⟩ := List.mem_map.mp hd
    rfl
  have hplacements : ({} : Assembler).placements (directives strings)
      = ({} : Assembler).placements (strings.map .string) :=
    Assembler.placements_append_of_isInstruction (fun d hd => (mem_code hd).1) _ _
  rw [hplacements] at hmap hplaced
  refine ⟨by omega, forall₂_of_placements (hmap.trans hliterals) fun bytes address h => ?_⟩
  obtain ⟨front, back, hmemory, haddress, -⟩ := hplaced _ h
  dsimp only at hmemory haddress
  have hlength := congrArg List.length hmemory
  rw [List.length_append, List.length_append] at hlength
  have htoNat : address.toUInt32.toNat = front.length := by
    have := Bytes.toNat_toUInt32 (x := address) (by omega)
    omega
  refine ⟨by omega, ?_⟩
  rw [htoNat, hbytes, List.take_append, List.take_of_length_le (by omega), hmemory,
    List.append_assoc, List.append_assoc, List.drop_left]
  exact List.prefix_append _ _

/-- The module is assembled, and loaded if its image is not too long. -/
theorem exists_assembled (strings : List ByteArray) :
    ∃ a image, ({} : Assembler).emitAll (directives strings) = .ok a ∧ a.image = .ok image ∧
      (image.size ≤ 4 * 2 ^ 20 → ∀ name, ∃ m, Module.load name image = .ok m ∧
        m.header.instructionCount.toUInt32.toNat
          = (program ((addresses strings).map Int32.toUInt32)).length ∧
        m.program.Linked (program ((addresses strings).map Int32.toUInt32))) := by
  obtain ⟨b, hb⟩ := Assembler.exists_emitAll_string (a := {}) rfl strings
  obtain ⟨a, ha⟩ := b.exists_emitAll fun d (hd : d ∈ code (addresses strings)) =>
    (mem_code hd).1
  have ha : ({} : Assembler).emitAll (directives strings) = .ok a := by
    rw [directives, Assembler.emitAll_append_of_emitAll hb, ha]
  obtain ⟨I, image, hI, himage, hload⟩ := Assembler.exists_linked (wellUsed_directives strings) ha
  rw [instructions_directives] at hI
  obtain rfl := Directive.Denotes.forall₂_unique hI (denotes_code _ _)
  refine ⟨a, image, ha, himage, fun hsize name => ?_⟩
  obtain ⟨m, hm, hcount, hlinked⟩ := hload hsize name
  have hnat := Bytes.toNat_toUInt32 (x := m.header.instructionCount) (by omega)
  exact ⟨m, hm, by omega, hlinked⟩

/-! ## Calls -/

/-- **The module prints its strings.** The print trap writes the bytes from its masked argument
up to the first zero byte or the end of the buffer, cut to 8192 bytes, and answers zero, on any
loaded machine. Take strings without zero bytes, each of at most 8192 bytes. Their module is
assembled, and if the image is not too long, it is loaded. A machine that runs it without an
instruction limit, with the standard traps and a writer that does not fail, freshly created or
with anything on its program stack, answers a call that nobody cancels and that has at most
twelve arguments with zero, after it has written all strings one behind the other. It changes
nothing below the program stack. -/
theorem print_strings {write : Writer σ} {output : σ → ByteArray} (hwrite : Appends write output)
    (clock : HostM σ Int64) :
    (∀ (words : Array UInt32) (l : Loaded) (s : σ), words.getD 0 0 = 0 → ∃ s',
      Bytes.toBytes (output s') = Bytes.toBytes (output s)
        ++ (((Bytes.toBytes l.arena.bytes).drop (words.getD 1 0 &&& l.arena.mask).toNat).takeWhile
          (· ≠ 0)).take 8192 ∧
      ∀ callBack (m : Machine), m.loaded = some l →
        ((Registry.standard write clock).host words s).run callBack m
          = some (m, s', .value 0)) ∧
    ∀ (strings : List ByteArray) (name : String),
      (∀ bytes ∈ strings, 0 ∉ Bytes.toBytes bytes ∧ bytes.size ≤ 8192) →
      ∃ a image, ({} : Assembler).emitAll (directives strings) = .ok a ∧ a.image = .ok image ∧
        (image.size ≤ 4 * 2 ^ 20 → ∃ m, Module.load name image = .ok m ∧
          ∀ (vm : Machine) (b : Arena) (c : Invocation) (s : σ), vm.Idle m 0 b →
            m.arena.AgreesOutside (m.arena.size.toNat - 0x10000) m.arena.size.toNat b →
            c.interruption = none → c.args.length ≤ 12 →
            ∃ (n : Nat) (vm' : Machine) (b' : Arena) (s' : σ),
              (∀ fuel, Machine.call (Registry.standard write clock).host (fuel + n) vm s c
                = some (vm', s', ⟨0, none⟩)) ∧
              Bytes.toBytes (output s')
                = Bytes.toBytes (output s) ++ strings.flatMap Bytes.toBytes ∧
              vm'.Idle m 0 b' ∧
              m.arena.AgreesOutside (m.arena.size.toNat - 0x10000) m.arena.size.toNat b') := by
  refine ⟨fun words l s hnumber => ?_, fun strings name hstrings => ?_⟩
  · obtain ⟨s', houtput, hrun⟩ := run_print clock hwrite hnumber l s
    refine ⟨s', ?_, hrun⟩
    rw [houtput, Bytes.toBytes_append, Bytes.toBytes_extract, List.drop_zero,
      Arena.toBytes_cString]
  · obtain ⟨a, image, ha, himage, hload⟩ := exists_assembled strings
    refine ⟨a, image, ha, himage, fun hsize => ?_⟩
    obtain ⟨m, hm, hcount, hp⟩ := hload hsize name
    refine ⟨m, hm, fun vm b c s hidle hagrees hwaits hargs => ?_⟩
    obtain ⟨hlarge, hliterals⟩ := hasLiteral_addresses ha himage hm
    have hcount' : (Machine.entered vm.status).instructionCount.toUInt32.toNat
        = (program ((addresses strings).map Int32.toUInt32)).length := by
      rw [Machine.entered, hidle.instructionCount]
      exact hcount
    have hfirst : m.program.offset 0 = 0 := hp.offset_eq (Nat.zero_le _)
    have hsize := m.arena.toNat_size
    have hmask := congrArg UInt32.toNat hagrees.mask
    have hframe : (vm.status.programStack - callFrameSize).toNat = m.arena.size.toNat - 60 := by
      rw [hidle.programStack]
      exact UInt32.toNat_sub_of_le _ _ (UInt32.le_iff_toNat_le.mpr
        (show 60 ≤ m.arena.size.toNat by omega))
    have hpush : Arena.AgreesOutside (vm.status.programStack - callFrameSize).toNat
        ((vm.status.programStack - callFrameSize).toNat + 60) b
        (b.pushFrame (vm.status.programStack - callFrameSize) c) :=
      Arena.agreesOutside_pushFrame hargs (by omega)
    have hpush' := congrArg UInt32.toNat hpush.mask
    have hliterals' := hliterals.imp fun _ _ h =>
      ((h.of_agreesOutside hagrees (Nat.le_refl _)).of_agreesOutside hpush (by omega)).mono
        (show _ ≤ (vm.status.programStack - callFrameSize).toNat - 16 by omega)
    have hback : (b.pushFrame (vm.status.programStack - callFrameSize) c).load4
        (vm.status.programStack - callFrameSize) = returnMarker := Arena.load4_store4 _ _ _
    obtain ⟨b', s', stack, spot, hpassage, hends, houtput, hagrees'⟩ :=
      exists_passage_program clock hwrite hp hcount' rfl hback hliterals'
        hstrings (by omega) (by omega) (by rw [Arena.toNat_size]; omega) s
    obtain ⟨n, vm', hcall, hidle'⟩ := hidle.exists_call_of_passage hwaits hargs hfirst hpassage
      hends hidle.instructionCount hidle.heap
    exact ⟨n, vm', b', s', hcall, houtput, hidle',
      (hagrees.trans (hpush.mono (by omega) (by omega))).trans
        (hagrees'.mono (by omega) (by omega))⟩

/-- Three strings, one of them empty. -/
def sampleStrings : List ByteArray :=
  ["hello\n".toUTF8, .empty, "Nice.\n".toUTF8]

/-- The sample is printed into a buffer. -/
theorem print_strings_sample :
    ∃ a image m, ({} : Assembler).emitAll (directives sampleStrings) = .ok a ∧
      a.image = .ok image ∧ Module.load "print" image = .ok m ∧ ∃ (n : Nat) (vm : Machine),
        ∀ fuel, Machine.call (Registry.standard toBuffer (pure 0)).host (fuel + n)
          (Machine.create m 0) .empty ⟨0, [], none⟩
            = some (vm, "hello\nNice.\n".toUTF8, ⟨0, none⟩) := by
  have hassembled : ∃ a image, ({} : Assembler).emitAll (directives sampleStrings) = .ok a ∧
      a.image = .ok image ∧ image.size ≤ 4 * 2 ^ 20 :=
    Assembler.exists_image_of_any (by decide +kernel)
  obtain ⟨a, image, ha, himage, hsize⟩ := hassembled
  obtain ⟨a', image', ha', himage', hload⟩ := (print_strings appends_toBuffer (pure 0)).2
    sampleStrings "print" (by decide +kernel)
  obtain rfl : a = a' := Except.ok.inj (ha.symm.trans ha')
  obtain rfl : image = image' := Except.ok.inj (himage.symm.trans himage')
  obtain ⟨m, hm, hcalls⟩ := hload hsize
  obtain ⟨n, vm, -, s, hcall, houtput, -⟩ := hcalls (Machine.create m 0) m.arena ⟨0, [], none⟩
    .empty (Machine.idle_create m 0 m.name) (.refl _) rfl (by decide)
  have hwritten : s = "hello\nNice.\n".toUTF8 := by
    rw [← Bytes.toBytes_inj]
    exact houtput.trans (by decide +kernel)
  exact ⟨a, image, m, ha, himage, hm, n, vm, hwritten ▸ hcall⟩

end Printing

end BytecodeHost
