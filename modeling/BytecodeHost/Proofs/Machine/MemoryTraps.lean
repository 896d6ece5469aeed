import BytecodeHost.Proofs.Machine.Answering
import BytecodeHost.Proofs.Machine.BlockCopy

/-!
# Traps that write to memory

Three of the standard traps write to the arena, at addresses and for lengths that the module
chooses. All words are possible, so what matters is that the checks are about integers: a range that
is used starts anywhere but at zero, and its end, which may not wrap around, lies below the size of
the arena.

The traps check everything before they write anything. So either the arena is as it was, or one
range of it has what the trap says, computed from the arena as it was before, which is why
overlapping ranges need no care. The copying trap does what the copying instruction does, though
they do not share their checks.

## Main definitions

* `MemoryTrap`, with `MemoryTrap.ranges` and `MemoryTrap.output` — the three traps
* `MemoryTrap.Allowed`, `MemoryTrap.Touches` — when they succeed, and what they do to a machine

## Main results

* `Machine.validateRange_of_admits`, `Machine.exists_validateRange_error` — the check of a range
* `MemoryTrap.run_host` — what a trap does
-/

namespace BytecodeHost

variable {σ : Type}

/-! ## Ranges -/

/-- A range can be used: it does not start at null, and it ends below the size. -/
def Arena.Admits (a : Arena) (range : UInt32 × UInt32) : Prop :=
  range.1 ≠ 0 ∧ range.1.toNat + range.2.toNat < a.size.toNat

namespace Arena.Admits

variable {a : Arena} {address length : UInt32}

theorem le_size_bytes (h : a.Admits (address, length)) :
    address.toNat + length.toNat ≤ a.bytes.size :=
  le_size_bytes_of_lt_size h.2

theorem size_read (h : a.Admits (address, length)) :
    (a.read address.toNat length.toNat).size = length.toNat :=
  Arena.size_read h.le_size_bytes

end Arena.Admits

namespace Machine

variable {m : Machine} {l : Loaded} {address length : UInt32}

theorem validateRange_of_admits (hl : m.loaded = some l) (h : l.arena.Admits (address, length)) :
    m.validateRange address length = (m, .ok ()) := by
  rw [validateRange, hl]
  dsimp only
  rw [if_neg h.1, Arena.validRange, if_pos (Arena.inRange_iff_lt_size.mpr h.2)]

/-- A range that cannot be used is refused, and the arena stays as it is. -/
theorem exists_validateRange_error (hl : m.loaded = some l)
    (h : ¬l.arena.Admits (address, length)) :
    ∃ m' f, m.validateRange address length = (m', .error f) ∧ m'.loaded = m.loaded := by
  rw [validateRange, hl]
  dsimp only
  by_cases hzero : address = 0
  · rw [if_pos hzero]
    exact ⟨_, _, rfl, hl⟩
  · rw [if_neg hzero, Arena.validRange,
      if_neg fun hrange => h ⟨hzero, Arena.inRange_iff_lt_size.mp hrange⟩]
    exact ⟨_, _, rfl, hl⟩

theorem poke_of_loaded (hl : m.loaded = some l) (offset : Nat) (bytes : ByteArray) :
    m.poke offset bytes
      = { m with loaded := some { l with arena := l.arena.write offset bytes } } := by
  obtain ⟨_, status⟩ := m
  obtain rfl := hl
  rfl

end Machine

/-! ## The traps -/

/-- The standard traps that write to memory. -/
inductive MemoryTrap where
  /-- Fills a range with a byte. -/
  | memset
  /-- Copies a range. -/
  | memcpy
  /-- Writes the digest of a range. -/
  | hash

namespace MemoryTrap

/-- The arguments of a memory trap. -/
structure Arguments where
  /-- Where the range starts that is written to. -/
  dst : UInt32
  /-- The byte to fill with, or where the range starts that is read. -/
  operand : UInt32
  /-- How many bytes are filled or read. -/
  length : UInt32

/-- The arguments are the words behind the trap number. -/
def Arguments.ofWords (words : Array UInt32) : Arguments :=
  ⟨StandardTrap.arg words 1, StandardTrap.arg words 2, StandardTrap.arg words 3⟩

/-- The number of a trap. -/
def number : MemoryTrap → Int32
  | memset => 100
  | memcpy => 101
  | hash => 3

/-- The ranges that a trap uses. -/
def ranges (t : MemoryTrap) (x : Arguments) : List (UInt32 × UInt32) :=
  match t with
  | memset => if x.length = 0 then [] else [(x.dst, x.length)]
  | memcpy => if x.length = 0 then [] else [(x.dst, x.length), (x.operand, x.length)]
  | hash => if x.length = 0 then [(x.dst, 32)] else [(x.dst, 32), (x.operand, x.length)]

/-- A trap is allowed: it is for at most 10 MiB, and every range that it uses can be used. -/
def Allowed (t : MemoryTrap) (x : Arguments) (a : Arena) : Prop :=
  x.length.toNat ≤ 10 * 2 ^ 20 ∧ ∀ range ∈ t.ranges x, a.Admits range

/-- What a trap writes. -/
def output (t : MemoryTrap) (x : Arguments) (a : Arena) : List UInt8 :=
  match t with
  | memset => List.replicate x.length.toNat (UInt8.ofNat (x.operand.toNat % 256))
  | memcpy => ((Bytes.toBytes a.bytes).drop x.operand.toNat).take x.length.toNat
  | hash => Bytes.toBytes (Blake3.digest
      (a.bytes.extract x.operand.toNat (x.operand.toNat + x.length.toNat)))

theorem toUInt8_eq (w : UInt32) : w.toUInt8 = UInt8.ofNat (w.toNat % 256) := by
  rw [← UInt8.toNat_inj, UInt32.toNat_toUInt8, UInt8.toNat_ofNat', Nat.mod_mod]

/-- How many bytes a trap writes. -/
def span (t : MemoryTrap) (x : Arguments) : Nat :=
  match t with
  | memset | memcpy => x.length.toNat
  | hash => 32

/-- What a trap answers if it succeeds. -/
def answer (t : MemoryTrap) (x : Arguments) : Int64 :=
  match t with
  | memset | memcpy => x.dst.toInt32.toInt64
  | hash => 0

/-- What a trap does to a loaded machine, and how it is answered. -/
structure Touches (t : MemoryTrap) (x : Arguments) (m : Machine) (l : Loaded) (m' : Machine)
    (reply : TrapReply) : Prop where
  /-- If it is allowed, the output takes the place of as many bytes, and nothing else changes. -/
  allowed : t.Allowed x l.arena → reply = .value (t.answer x) ∧
    (t.output x l.arena).length = t.span x ∧ ∃ a : Arena,
      m' = { m with loaded := some { l with arena := a } } ∧ a.mask = l.arena.mask ∧
      Bytes.toBytes a.bytes = (Bytes.toBytes l.arena.bytes).take x.dst.toNat
        ++ (t.output x l.arena ++ (Bytes.toBytes l.arena.bytes).drop (x.dst.toNat + t.span x))
  /-- If it is not, it fails, and program and arena are as before. -/
  refused : ¬t.Allowed x l.arena → (∃ f, reply = .refused f) ∧ m'.loaded = m.loaded

/-- To fill or copy nothing is allowed, whatever the addresses are. -/
theorem allowed_of_length_eq_zero {t : MemoryTrap} {x : Arguments} {a : Arena}
    (ht : t = .memset ∨ t = .memcpy) (hzero : x.length = 0) : t.Allowed x a := by
  have hranges : t.ranges x = [] := by obtain rfl | rfl := ht <;> exact if_pos hzero
  refine ⟨by rw [hzero]; decide, fun range hrange => ?_⟩
  rw [hranges] at hrange
  contradiction

namespace Touches

variable {t : MemoryTrap} {x : Arguments} {m m' : Machine} {l : Loaded} {reply : TrapReply}

theorem of_refused {f : Failure} (h : ¬t.Allowed x l.arena) (hloaded : m'.loaded = m.loaded) :
    t.Touches x m l m' (.refused f) :=
  ⟨fun hallowed => absurd hallowed h, fun _ => ⟨⟨f, rfl⟩, hloaded⟩⟩

/-- The output is written to a range that lies in the buffer. -/
theorem of_write {bytes : ByteArray} (h : t.Allowed x l.arena) (hl : m.loaded = some l)
    (houtput : Bytes.toBytes bytes = t.output x l.arena) (hspan : bytes.size = t.span x)
    (hroom : x.dst.toNat + t.span x ≤ l.arena.bytes.size) :
    t.Touches x m l (m.poke x.dst.toNat bytes) (.value (t.answer x)) := by
  refine ⟨fun _ => ⟨rfl, ?_, _, Machine.poke_of_loaded hl _ _, Arena.mask_write .., ?_⟩,
    fun hnot => absurd h hnot⟩
  · rw [← houtput, Bytes.length_toBytes, hspan]
  · rw [Arena.toBytes_write (by omega), houtput, hspan]

/-- Nothing is filled or copied, whatever the addresses are. -/
theorem of_length_eq_zero (ht : t = .memset ∨ t = .memcpy) (hzero : x.length = 0)
    (hl : m.loaded = some l) : t.Touches x m l m (.value (t.answer x)) := by
  have hlength : x.length.toNat = 0 := congrArg UInt32.toNat hzero
  have houtput : t.output x l.arena = [] := by
    obtain rfl | rfl := ht <;> rw [output, hlength] <;> rfl
  have hspan : t.span x = 0 := by obtain rfl | rfl := ht <;> exact hlength
  refine ⟨fun _ => ⟨rfl, by rw [houtput, hspan]; rfl, l.arena, ?_, rfl, ?_⟩,
    fun hnot => absurd (allowed_of_length_eq_zero ht hzero) hnot⟩
  · rw [← hl]
  · rw [houtput, hspan, List.nil_append, Nat.add_zero, List.take_append_drop]

end Touches

theorem lt_length_iff {x : Arguments} :
    StandardTrap.maxRangeLength < x.length ↔ ¬x.length.toNat ≤ 10 * 2 ^ 20 := by
  rw [UInt32.lt_iff_toNat_lt, Nat.not_le]
  rfl

section

variable {x : Arguments} {a : Arena} (hlong : ¬StandardTrap.maxRangeLength < x.length)
include hlong

theorem allowed_iff_of_not_lt {t : MemoryTrap} :
    t.Allowed x a ↔ ∀ range ∈ t.ranges x, a.Admits range :=
  and_iff_right (Decidable.not_not.mp (lt_length_iff.not.mp hlong))

theorem allowed_memset_iff (hzero : x.length ≠ 0) :
    memset.Allowed x a ↔ a.Admits (x.dst, x.length) := by
  rw [allowed_iff_of_not_lt hlong, ranges, if_neg hzero, List.forall_mem_singleton]

theorem allowed_memcpy_iff (hzero : x.length ≠ 0) :
    memcpy.Allowed x a ↔ a.Admits (x.dst, x.length) ∧ a.Admits (x.operand, x.length) := by
  rw [allowed_iff_of_not_lt hlong, ranges, if_neg hzero, List.forall_mem_cons,
    List.forall_mem_singleton]

theorem allowed_hash_iff :
    hash.Allowed x a ↔ a.Admits (x.dst, 32) ∧ (x.length ≠ 0 → a.Admits (x.operand, x.length)) := by
  rw [allowed_iff_of_not_lt hlong, ranges]
  by_cases hzero : x.length = 0
  · rw [if_pos hzero, List.forall_mem_singleton, and_iff_left fun h => absurd hzero h]
  · rw [if_neg hzero, List.forall_mem_cons, List.forall_mem_singleton, imp_iff_right hzero]

end

/-! ## Handlers -/

section

variable (callBack : Machine → σ → Invocation → Option (Machine × σ × CallResult)) (s : σ)
variable (words : Array UInt32) {m : Machine} {l : Loaded} (hl : m.loaded = some l)
include hl

/-- A range is checked before anything else is done: either it can be used, or the trap is
refused. -/
theorem exists_run_of_checkRange {t : MemoryTrap} {x : Arguments} {address length : UInt32}
    {k : Except Failure Unit → HostM σ TrapReply}
    (hrefused : ∀ f, k (.error f) = pure (.refused f))
    (hallowed : t.Allowed x l.arena → l.arena.Admits (address, length))
    (hgoesOn : l.arena.Admits (address, length) → ∃ m' reply,
      (k (.ok ()) s).run callBack m = some (m', s, reply) ∧ t.Touches x m l m' reply) :
    ∃ m' reply,
      ((StandardTrap.checkRange address length >>= k) s).run callBack m = some (m', s, reply) ∧
        t.Touches x m l m' reply := by
  rw [HostM.run_bind, StandardTrap.run_checkRange, Option.bind_some]
  by_cases hadmits : l.arena.Admits (address, length)
  · rw [Machine.validateRange_of_admits hl hadmits]
    exact hgoesOn hadmits
  · obtain ⟨m', f, hcheck, hloaded⟩ := Machine.exists_validateRange_error hl hadmits
    rw [hcheck]
    exact ⟨m', _, congrArg (fun h : HostM σ TrapReply => (h s).run callBack m') (hrefused f),
      .of_refused (hadmits ∘ hallowed) hloaded⟩

theorem exists_run_memset :
    ∃ m' reply, (StandardTrap.memset words s).run callBack m = some (m', s, reply) ∧
      memset.Touches (.ofWords words) m l m' reply := by
  simp only [StandardTrap.memset, HostM.run_ite, HostM.run_pure]
  by_cases hzero : StandardTrap.arg words 3 = 0
  · rw [if_pos hzero]
    exact ⟨m, _, rfl, .of_length_eq_zero (.inl rfl) hzero hl⟩
  by_cases hlong : StandardTrap.maxRangeLength < StandardTrap.arg words 3
  · rw [if_neg hzero, if_pos hlong]
    exact ⟨m, _, rfl, .of_refused (fun h => lt_length_iff.mp hlong h.1) rfl⟩
  rw [if_neg hzero, if_neg hlong]
  have hallowed := allowed_memset_iff (x := .ofWords words) (a := l.arena) hlong hzero
  refine exists_run_of_checkRange callBack s hl (fun f => rfl) hallowed.mp fun hdst => ?_
  simp only [HostM.run_bind, StandardTrap.run_writeRange, Option.bind_some, HostM.run_pure]
  refine ⟨_, _, rfl, .of_write (hallowed.mpr hdst) hl ?_ (Bytes.size_fill _ _) hdst.le_size_bytes⟩
  rw [Bytes.toBytes_fill, toUInt8_eq]
  rfl

theorem exists_run_memcpy :
    ∃ m' reply, (StandardTrap.memcpy words s).run callBack m = some (m', s, reply) ∧
      memcpy.Touches (.ofWords words) m l m' reply := by
  simp only [StandardTrap.memcpy, HostM.run_ite, HostM.run_pure]
  by_cases hzero : StandardTrap.arg words 3 = 0
  · rw [if_pos hzero]
    exact ⟨m, _, rfl, .of_length_eq_zero (.inr rfl) hzero hl⟩
  by_cases hlong : StandardTrap.maxRangeLength < StandardTrap.arg words 3
  · rw [if_neg hzero, if_pos hlong]
    exact ⟨m, _, rfl, .of_refused (fun h => lt_length_iff.mp hlong h.1) rfl⟩
  rw [if_neg hzero, if_neg hlong]
  have hallowed := allowed_memcpy_iff (x := .ofWords words) (a := l.arena) hlong hzero
  refine exists_run_of_checkRange callBack s hl (fun f => rfl) (fun h => (hallowed.mp h).1)
    fun hdst => ?_
  refine exists_run_of_checkRange callBack s hl (fun f => rfl) (fun h => (hallowed.mp h).2)
    fun hsrc => ?_
  simp only [HostM.run_bind, StandardTrap.run_readRange callBack s hl,
    StandardTrap.run_writeRange, Option.bind_some, HostM.run_pure]
  exact ⟨_, _, rfl, .of_write (hallowed.mpr ⟨hdst, hsrc⟩) hl (Arena.toBytes_read ..)
    hsrc.size_read hdst.le_size_bytes⟩

theorem exists_run_hash :
    ∃ m' reply, (StandardTrap.hash words s).run callBack m = some (m', s, reply) ∧
      hash.Touches (.ofWords words) m l m' reply := by
  simp only [StandardTrap.hash, HostM.run_ite, HostM.run_pure]
  by_cases hlong : StandardTrap.maxRangeLength < StandardTrap.arg words 3
  · rw [if_pos hlong]
    exact ⟨m, _, rfl, .of_refused (fun h => lt_length_iff.mp hlong h.1) rfl⟩
  rw [if_neg hlong]
  have hallowed := allowed_hash_iff (x := .ofWords words) (a := l.arena) hlong
  refine exists_run_of_checkRange callBack s hl (fun f => rfl) (fun h => (hallowed.mp h).1)
    fun hdst => ?_
  by_cases hzero : StandardTrap.arg words 3 = 0
  · have hempty : l.arena.bytes.extract (StandardTrap.arg words 2).toNat
        ((StandardTrap.arg words 2).toNat + (StandardTrap.arg words 3).toNat) = .empty := by
      rw [hzero, ← Bytes.toBytes_inj, Bytes.toBytes_extract, List.drop_take,
        Nat.add_sub_cancel_left]
      exact List.take_zero
    simp only [if_pos hzero, HostM.run_bind, StandardTrap.run_writeRange, Option.bind_some,
      HostM.run_pure]
    exact ⟨_, _, rfl, .of_write (hallowed.mpr ⟨hdst, fun h => absurd hzero h⟩) hl
      (congrArg (fun b => Bytes.toBytes (Blake3.digest b)) hempty.symm) (Blake3.size_digest _)
      hdst.le_size_bytes⟩
  · simp only [if_neg hzero]
    refine exists_run_of_checkRange callBack s hl (fun f => rfl)
      (fun h => (hallowed.mp h).2 hzero) fun hsrc => ?_
    simp only [HostM.run_bind, StandardTrap.run_readRange callBack s hl,
      StandardTrap.run_writeRange, Option.bind_some, HostM.run_pure]
    exact ⟨_, _, rfl, .of_write (hallowed.mpr ⟨hdst, fun _ => hsrc⟩) hl rfl
      (Blake3.size_digest _) hdst.le_size_bytes⟩

end

/-- The handler of a trap. -/
def handler : MemoryTrap → Host σ
  | memset => StandardTrap.memset
  | memcpy => StandardTrap.memcpy
  | hash => StandardTrap.hash

theorem find?_standard (t : MemoryTrap) (write : StandardTrap.Writer σ) (clock : HostM σ Int64) :
    (Registry.standard write clock).find? t.number = some t.handler := by
  cases t <;> rfl

/-- The copying trap and the copying instruction, for ranges that are neither empty nor too long and
do not start at null, succeed alike and leave one arena behind. -/
theorem Touches.agrees_blockCopy {x : Arguments} {m m' : Machine} {l : Loaded} {reply : TrapReply}
    (h : memcpy.Touches x m l m' reply) (hdst : x.dst ≠ 0) (hsrc : x.operand ≠ 0)
    (hzero : x.length ≠ 0) (hle : x.length.toNat ≤ 10 * 2 ^ 20) {p : Program} (count : Int32)
    {r : Registers} (hop : p.HasOpcode r.pc .blockCopy)
    (hoperand : p.code[(r.pc + 1).toNat]? = some x.length) (hsecond : r.operands.second = x.dst)
    (hfirst : r.operands.first = x.operand) :
    ((∃ v, reply = .value v) ↔ ∃ r' a, step p count r l.arena = .next r' a) ∧
      ∀ r' a, step p count r l.arena = .next r' a → m'.loaded = some { l with arena := a } := by
  have hlong : ¬StandardTrap.maxRangeLength < x.length := fun hlt => lt_length_iff.mp hlt hle
  have hallowed : memcpy.Allowed x l.arena ↔
      l.arena.validRange x.dst x.length = .ok () ∧
        l.arena.validRange x.operand x.length = .ok () := by
    rw [allowed_memcpy_iff hlong hzero, Arena.validRange_eq_ok_iff, Arena.validRange_eq_ok_iff]
    exact and_congr (and_iff_right hdst) (and_iff_right hsrc)
  rw [step_blockCopy count hop hoperand, hsecond, hfirst]
  cases hcopy : l.arena.blockCopy x.dst x.operand x.length with
  | ok b =>
    obtain ⟨hvalid, rfl⟩ := Arena.blockCopy_eq_ok_iff.mp hcopy
    obtain ⟨hreply, -, a, hm', hmask, hbytes⟩ := h.allowed (hallowed.mpr hvalid)
    refine ⟨⟨fun _ => ⟨_, _, rfl⟩, fun _ => ⟨_, hreply⟩⟩, fun r' b hstep => ?_⟩
    obtain ⟨-, rfl⟩ := Effect.next.inj hstep
    rw [Arena.validRange_eq_ok_iff, Arena.validRange_eq_ok_iff] at hvalid
    have hmoved := Arena.toBytes_moveBytes hvalid.1 hvalid.2
    have hab : a = l.arena.moveBytes x.dst x.operand x.length :=
      Arena.ext_toBytes (hmask.trans (Arena.mask_write ..).symm) (hbytes.trans hmoved.symm)
    rw [hm', hab]
  | error e =>
    have hnot : ¬memcpy.Allowed x l.arena := fun hallows => by
      rw [Arena.blockCopy_eq_ok_iff.mpr ⟨hallowed.mp hallows, rfl⟩] at hcopy
      contradiction
    obtain ⟨⟨f, rfl⟩, -⟩ := h.refused hnot
    refine ⟨⟨fun ⟨v, hv⟩ => ?_, fun ⟨r', a, hstep⟩ => ?_⟩, fun r' a hstep => ?_⟩ <;> contradiction

/-- **What a memory trap does.** The trap is handed any words, for any loaded machine. It ends, and
it either is allowed, that is for at most 10 MiB, with every range that it uses starting anywhere
but at null and ending below the size of the arena; then it succeeds, and its output takes the place
of as many bytes at its destination: copies of a byte, what another range held before, or the digest
of what another range held before. Or it is not allowed, and then it fails and leaves the arena as
it is. To fill or copy nothing is always allowed. And where the copying instruction copies a range
that is neither empty nor too long, between addresses that are not null, the copying trap does the
same. -/
theorem run_host (t : MemoryTrap) (write : StandardTrap.Writer σ) (clock : HostM σ Int64)
    {words : Array UInt32} (hnumber : (words.getD 0 0).toInt32 = t.number) {m : Machine}
    {l : Loaded} (hl : m.loaded = some l) (s : σ)
    (callBack : Machine → σ → Invocation → Option (Machine × σ × CallResult)) :
    ∃ m' reply, ((Registry.standard write clock).host words s).run callBack m
        = some (m', s, reply) ∧
      t.Touches (.ofWords words) m l m' reply ∧
      (t ≠ .hash → (Arguments.ofWords words).length = 0 → t.Allowed (.ofWords words) l.arena) ∧
      (t = .memcpy → (Arguments.ofWords words).dst ≠ 0 → (Arguments.ofWords words).operand ≠ 0 →
        (Arguments.ofWords words).length ≠ 0 →
        (Arguments.ofWords words).length.toNat ≤ 10 * 2 ^ 20 →
        ∀ (p : Program) (count : Int32) (r : Registers), p.HasOpcode r.pc .blockCopy →
          p.code[(r.pc + 1).toNat]? = some (Arguments.ofWords words).length →
          r.operands.second = (Arguments.ofWords words).dst →
          r.operands.first = (Arguments.ofWords words).operand →
          ((∃ v, reply = .value v) ↔ ∃ r' a, step p count r l.arena = .next r' a) ∧
          ∀ r' a, step p count r l.arena = .next r' a →
            m'.loaded = some { l with arena := a }) := by
  have hrun : ∃ m' reply, (t.handler words s).run callBack m = some (m', s, reply) ∧
      t.Touches (.ofWords words) m l m' reply := by
    cases t with
    | memset => exact exists_run_memset callBack s words hl
    | memcpy => exact exists_run_memcpy callBack s words hl
    | hash => exact exists_run_hash callBack s words hl
  obtain ⟨m', reply, hrun, htouches⟩ := hrun
  refine ⟨m', reply, ?_, htouches, fun hne hzero => ?_, ?_⟩
  · rw [Registry.host_of_find? hnumber (t.find?_standard write clock), hrun]
  · refine allowed_of_length_eq_zero ?_ hzero
    cases t with
    | memset => exact .inl rfl
    | memcpy => exact .inr rfl
    | hash => contradiction
  · rintro rfl hdst hsrc hzero hle p count r hop hoperand hsecond hfirst
    exact htouches.agrees_blockCopy hdst hsrc hzero hle count hop hoperand hsecond hfirst

/-- Sixteen bytes, with four of them at an address that is not null. -/
def sampleArena : Arena where
  bytes := ⟨#[0, 0, 0, 0, 1, 2, 3, 4, 0, 0, 0, 0, 0, 0, 0, 0, 0, 0, 0, 0]⟩
  mask := 15
  isPowerOfTwo := ⟨4, by decide, by decide⟩
  size_bytes := by decide

/-- A program that copies four bytes. -/
def sampleProgram : Program :=
  ⟨#[Opcode.blockCopy.toByte.toUInt32, 4, 0], #[0, 2]⟩

/-- A machine for the sample. -/
def sampleMachine : Machine :=
  .create ⟨"sample", ⟨Header.moduleMagic, 1, 32, 6, 38, 0, 0, 0⟩, sampleProgram, sampleArena⟩ 0

/-- Four bytes are copied onto a range that they overlap, by the trap and by the instruction. -/
theorem run_host_overlapping :
    ∃ (m' : Machine) (b : Arena) (r' : Registers),
      ((Registry.standard (fun _ => pure (.ok ())) (pure 0)).host #[101, 6, 4, 4] ()).run
        (fun _ _ _ => none) sampleMachine = some (m', (), .value 6) ∧
      m'.loaded = some ⟨sampleProgram, b⟩ ∧
      step sampleProgram 1 ⟨0, 0, (Operands.initial.push 6).push 4⟩ sampleArena = .next r' b ∧
      Bytes.toBytes b.bytes = [0, 0, 0, 0, 1, 2, 1, 2, 3, 4, 0, 0, 0, 0, 0, 0, 0, 0, 0, 0] := by
  have hnumber : ((#[101, 6, 4, 4] : Array UInt32).getD 0 0).toInt32 = number .memcpy := rfl
  obtain ⟨m', reply, hrun, htouches, -, hcopy⟩ := run_host .memcpy
    (fun _ => pure (.ok ())) (pure 0) hnumber (m := sampleMachine) rfl () fun _ _ _ => none
  have hallowed : memcpy.Allowed (.ofWords #[101, 6, 4, 4]) sampleArena :=
    (allowed_memcpy_iff (by decide) (by decide)).mpr
      ⟨⟨by decide, by decide⟩, ⟨by decide, by decide⟩⟩
  obtain ⟨rfl, -, b, hm', -, hbytes⟩ := htouches.allowed hallowed
  obtain ⟨hiff, harena⟩ := hcopy rfl (by decide) (by decide) (by decide) (by decide) sampleProgram 1
    ⟨0, 0, (Operands.initial.push 6).push 4⟩ ⟨_, rfl, rfl⟩ rfl (by decide +kernel)
    (by decide +kernel)
  obtain ⟨r', b', hstep⟩ := hiff.mp ⟨_, rfl⟩
  have hloaded := harena r' b' hstep
  obtain rfl : b = b' := by
    rw [hm'] at hloaded
    exact (Loaded.mk.inj (Option.some.inj hloaded)).2
  exact ⟨m', b, r', hrun, hloaded, hstep, hbytes.trans (by decide +kernel)⟩

end MemoryTrap

end BytecodeHost
