import BytecodeHost.Proofs.Machine.MemoryTraps

/-!
# The heap

A module gets memory from one range of the arena, which the host has set aside, and gets it block by
block; nothing is ever given back. Starts of ranges need not be aligned, blocks may be empty or
almost as large as a signed word can say, and a range may be set again at any time.

What was asked of the heap is a list of events, one for each request that succeeded. A `Pool` is
what the user of a heap makes of them, in integers: the range, and the allotments out of it.
`Machine.History` has the machines with the events behind them. A host asks between calls and while
it handles a trap, and the allocating trap is a host that asks, so calls are taken step by step;
that way the events of a call count also if it never returns.

## Main definitions

* `HeapEvent`, `Machine.History` — what is asked of a heap in the life of a machine
* `Pool`, `Pool.ofEvents` — what has been handed out
* `Machine.Backs` — the invariant: the words of the machine say what the pool says

## Main results

* `Machine.malloc_cases`, `Machine.setHeap_cases` — what the two requests can do
* `Request.keepsHeap_perform` — no other request but `free` does anything to the heap
* `Machine.backsAny_perform`, `Point.backsAny_step` — what a request and a step of a call keep
* `Machine.History.exists_of_call` — whole calls are part of the life of a machine
* `Machine.History.heap_of_pool` — what a heap does
-/

namespace BytecodeHost

variable {σ : Type}

/-! ## Events -/

/-- Something that happens to the heap of a machine. -/
inductive HeapEvent where
  /-- A range is set. -/
  | set (start length : Int32)
  /-- A block is handed out. -/
  | allot (size : Int32) (address : UInt32)
  /-- The machine is released, and the heap with it. -/
  | release
  deriving DecidableEq

/-- What a request has done to the heap, judged by the reply. -/
def Request.heapEvent? (q : Request) (reply : q.Reply) : Option HeapEvent :=
  match q, reply with
  | .setHeap start length, .ok () => some (.set start length)
  | .malloc size, .ok address => some (.allot size address)
  | .free, .ok () => some .release
  | _, _ => none

/-- What the next step in the course of a call does to the heap. -/
def Point.heapEvent? : Point σ → Option HeapEvent
  | ⟨.handling _ _ (.ask q _) m, _⟩ => q.heapEvent? (q.perform m).2
  | _ => none

/-- What the next steps do to it. -/
def Point.heapEvents (host : Host σ) : Nat → Point σ → List HeapEvent
  | 0, _ => []
  | n + 1, γ => γ.heapEvent?.toList ++ heapEvents host n (γ.step host)

/-- The machines that there are, each with the events of its heap, oldest first. Between its calls
and in the course of each, whatever host it has, anything can be asked of a machine. -/
inductive Machine.History : Machine → List HeapEvent → Prop where
  /-- A machine is made. -/
  | create (mod : Module) (limit : UInt64) : History (create mod limit) []
  /-- Something is asked of it. -/
  | request {m : Machine} {es : List HeapEvent} (h : History m es) (q : Request) :
    History (q.perform m).1 (es ++ (q.heapEvent? (q.perform m).2).toList)
  /-- A call starts. -/
  | call {σ : Type} {m : Machine} {es : List HeapEvent} (h : History m es) (s : σ)
    (c : Invocation) : History (Point.start m s c).machine es
  /-- A call gets on. -/
  | step {σ : Type} {γ : Point σ} {es : List HeapEvent} (h : History γ.machine es) (host : Host σ) :
    History (γ.step host).machine (es ++ γ.heapEvent?.toList)

/-! ## Pools -/

/-- A block that was handed out. -/
structure Allotment where
  /-- Where it starts. -/
  address : Int
  /-- How many bytes it has. -/
  size : Int
  deriving DecidableEq

/-- Where an allotment ends. -/
def Allotment.stop (x : Allotment) : Int :=
  x.address + x.size

/-- A heap as its user knows it. -/
structure Pool where
  /-- Where the range starts. -/
  start : Int
  /-- How many bytes it has. -/
  length : Int
  /-- What was handed out, newest first. -/
  allotments : List Allotment
  deriving DecidableEq

namespace Pool

/-- Where the range ends. -/
def stop (t : Pool) : Int :=
  t.start + t.length

/-- Where the newest allotment ends; the start of the range if there is none. -/
def top (t : Pool) : Int :=
  (t.allotments.head?.map Allotment.stop).getD t.start

/-- The next multiple of four. -/
def next (t : Pool) : Int :=
  (t.top + 3) / 4 * 4

/-- The bytes up to the end of the newest allotment. -/
def used (t : Pool) : Int :=
  t.top - t.start

/-- A pool with one more allotment. -/
def allot (t : Pool) (x : Allotment) : Pool :=
  { t with allotments := x :: t.allotments }

/-- What becomes of a pool at an event. Addresses and sizes are read as signed, as they are handed
over. -/
def after (t : Option Pool) : HeapEvent → Option Pool
  | .set start length => some ⟨start.toInt, length.toInt, []⟩
  | .allot size address => t.map (·.allot ⟨address.toInt32.toInt, size.toInt⟩)
  | .release => none

/-- The pool after some events. -/
def ofEvents (es : List HeapEvent) : Option Pool :=
  es.foldl after none

theorem ofEvents_append_toList (es : List HeapEvent) (e : Option HeapEvent) :
    ofEvents (es ++ e.toList) = e.elim (ofEvents es) (after (ofEvents es)) := by
  rw [ofEvents, List.foldl_append]
  cases e <;> rfl

/-- **Allotments are apart from each other** and in the range, and none of them is at null. -/
structure Sound (t : Pool) : Prop where
  /-- The range does not start at null. -/
  start_pos : 0 < t.start
  /-- The range is not empty. -/
  length_pos : 0 < t.length
  /-- Allotments are aligned. -/
  aligned : ∀ x ∈ t.allotments, 4 ∣ x.address
  /-- Allotments lie in the range. -/
  within : ∀ x ∈ t.allotments, t.start ≤ x.address ∧ 0 ≤ x.size ∧ x.stop ≤ t.stop
  /-- Each allotment starts where the one before it ends, or later. -/
  apart : t.allotments.Pairwise fun newer older => older.stop ≤ newer.address

theorem le_next (t : Pool) : t.top ≤ t.next := by
  rw [next]
  omega

namespace Sound

variable {t : Pool}

theorem stop_le_top (h : t.Sound) {x : Allotment} (hx : x ∈ t.allotments) : x.stop ≤ t.top := by
  obtain ⟨start, length, _ | ⟨y, ys⟩⟩ := t
  · contradiction
  · have hy : y.address ≤ y.stop := Int.le_add_of_nonneg_right (h.within y (.head ys)).2.1
    obtain rfl | hx := List.mem_cons.mp hx
    · exact Int.le_refl _
    · exact Int.le_trans (List.rel_of_pairwise_cons h.apart hx) hy

theorem start_le_top (h : t.Sound) : t.start ≤ t.top := by
  obtain ⟨start, length, _ | ⟨y, ys⟩⟩ := t
  · exact Int.le_refl _
  · obtain ⟨hstart, hsize, -⟩ := h.within y (.head ys)
    exact Int.le_trans hstart (Int.le_add_of_nonneg_right hsize)

theorem top_le_stop (h : t.Sound) : t.top ≤ t.stop := by
  obtain ⟨start, length, _ | ⟨y, ys⟩⟩ := t
  · exact Int.le_add_of_nonneg_right (Int.le_of_lt h.length_pos)
  · exact (h.within y (.head ys)).2.2

theorem used_le (h : t.Sound) : t.used ≤ t.length := by
  have hle := h.top_le_stop
  rw [stop] at hle
  rw [used]
  omega

/-- A pool with nothing handed out. -/
theorem of_pos {start length : Int} (hstart : 0 < start) (hlength : 0 < length) :
    Sound ⟨start, length, []⟩ :=
  ⟨hstart, hlength, fun _ h => absurd h List.not_mem_nil,
    fun _ h => absurd h List.not_mem_nil, .nil⟩

/-- **What fits can be handed out.** -/
theorem allot (h : t.Sound) {size : Int} (hsize : 0 ≤ size) (hfits : t.next + size ≤ t.stop) :
    (t.allot ⟨t.next, size⟩).Sound where
  start_pos := h.start_pos
  length_pos := h.length_pos
  aligned := List.forall_mem_cons.mpr ⟨Int.dvd_mul_left .., h.aligned⟩
  within := List.forall_mem_cons.mpr
    ⟨⟨Int.le_trans h.start_le_top t.le_next, hsize, hfits⟩, h.within⟩
  apart := .cons (fun _ hx => Int.le_trans (h.stop_le_top hx) t.le_next) h.apart

end Sound

end Pool

/-! ## Requests -/

namespace Machine

/-- To clear the last two bits of a word is to round it down to a multiple of four. -/
theorem and_high_mask {n : Nat} (h : n < 2 ^ 32) : n &&& (2 ^ 30 - 1) * 2 ^ 2 = n / 4 * 4 := by
  refine Nat.eq_of_testBit_eq fun i => ?_
  rw [show n / 4 * 4 = n / 2 ^ 2 * 2 ^ 2 from rfl, Nat.testBit_and, Nat.testBit_mul_two_pow,
    Nat.testBit_mul_two_pow, Nat.testBit_div_two_pow, Nat.testBit_two_pow_sub_one]
  by_cases hlow : 2 ≤ i
  · rw [Nat.sub_add_cancel hlow]
    by_cases hhigh : i < 32
    · simp [hlow, show i - 2 < 30 by omega]
    · have hle : 2 ^ 32 ≤ 2 ^ i := Nat.pow_le_pow_right (by omega) (by omega)
      simp [Nat.testBit_lt_two_pow (h.trans_le hle)]
  · simp [hlow]

/-- Alignment does not wrap around in an arena. -/
theorem toNat_align {w : UInt32} (h : w.toNat < 2 ^ 31) :
    (align w).toNat = (w.toNat + 3) / 4 * 4 := by
  have hthree : (3 : UInt32).toNat = 3 := rfl
  have hsum : (w + 3).toNat = w.toNat + 3 := by
    rw [UInt32.toNat_add]
    exact Nat.mod_eq_of_lt (by omega)
  have hnot : (~~~(3 : UInt32)).toNat = (2 ^ 30 - 1) * 2 ^ 2 := rfl
  rw [align, UInt32.toNat_and, hsum, hnot, and_high_mask (by omega)]

/-- A machine after something that is not about its heap. -/
structure KeepsHeap (m m' : Machine) : Prop where
  /-- The fabric is the same. -/
  fabric : m'.fabric = m.fabric
  /-- So is the heap. -/
  heap : m'.status.heap = m.status.heap

end Machine

namespace Request

theorem Outcome.keepsHeap {q : Request} {m m' : Machine} (h : q.Outcome m m')
    (hq : q.touchesHeap = false) : m.KeepsHeap m' := by
  cases h with
  | same | refused => exact ⟨rfl, rfl⟩
  | allotted hq' => exact absurd (hq.symm.trans hq') Bool.false_ne_true
  | freed => contradiction
  | poked offset bytes =>
    obtain ⟨_ | l, status⟩ := m
    · exact ⟨rfl, rfl⟩
    · exact ⟨Machine.fabric_eq_of_mask (Arena.mask_write ..) rfl, rfl⟩
  | @restored saved hlevel l arena hl harena =>
    have hmask : arena.mask = l.arena.mask := by
      rw [Arena.restore] at harena
      split at harena
      · exact Except.ok.inj harena ▸ rfl
      · contradiction
    obtain ⟨l', status⟩ := m
    obtain rfl : l' = some l := hl
    exact ⟨Machine.fabric_eq_of_mask hmask rfl, rfl⟩

/-- A request that does not touch the heap keeps it. -/
theorem keepsHeap_perform {q : Request} (hq : q.touchesHeap = false) (m : Machine) :
    m.KeepsHeap (q.perform m).1 :=
  have h := (q.outcome m).keepsHeap hq
  ⟨h.fabric, h.heap⟩

end Request

namespace Machine

/-- **What an allocation can do.** It succeeds exactly if there is a heap with room for it, and it
changes nothing if it fails. -/
theorem malloc_cases (m : Machine) (size : Int32) :
    (m.status.heap.stop ≠ 0 ∧ 0 ≤ size.toInt ∧
      (align m.status.heap.next).toNat + size.toInt ≤ m.status.heap.stop.toNat ∧
      m.malloc size
        = ({ m with status := { m.status with heap := { m.status.heap with
              next := align m.status.heap.next + size.toUInt32 } } },
            .ok (align m.status.heap.next))) ∨
    (¬(m.status.heap.stop ≠ 0 ∧ 0 ≤ size.toInt ∧
        (align m.status.heap.next).toNat + size.toInt ≤ m.status.heap.stop.toNat) ∧
      ∃ m' f, m.malloc size = (m', .error f) ∧ m.KeepsHeap m') := by
  simp only [malloc]
  by_cases hstop : m.status.heap.stop = 0
  · rw [if_pos hstop]
    exact .inr ⟨fun h => h.1 hstop, _, _, rfl, ⟨rfl, rfl⟩⟩
  rw [if_neg hstop]
  by_cases hneg : size < 0
  · rw [if_pos hneg]
    have hlt : size.toInt < 0 := Int32.lt_iff_toInt_lt.mp hneg
    exact .inr ⟨fun h => absurd h.2.1 (by omega), _, _, rfl, ⟨rfl, rfl⟩⟩
  rw [if_neg hneg]
  have hsize : 0 ≤ size.toInt := Int.not_lt.mp fun h => hneg (Int32.lt_iff_toInt_lt.mpr h)
  have hnat := Bytes.toNat_toUInt32 hsize
  by_cases hfull : m.status.heap.stop.toNat
      < (align m.status.heap.next).toNat + size.toUInt32.toNat
  · rw [if_pos hfull]
    exact .inr ⟨fun h => absurd h.2.2 (by omega), _, _, rfl, ⟨rfl, rfl⟩⟩
  · rw [if_neg hfull]
    exact .inl ⟨hstop, hsize, by omega, rfl⟩

/-- **What setting the heap can do.** It succeeds exactly for a range of the arena that is not
empty, and it changes nothing if it fails. -/
theorem setHeap_cases (m : Machine) (start length : Int32) :
    (∃ l, m.loaded = some l ∧ 0 < length.toInt ∧ l.arena.Admits (start.toUInt32, length.toUInt32) ∧
      m.setHeap start length
        = ({ m with status := { m.status with heap :=
              ⟨start.toUInt32, start.toUInt32, start.toUInt32 + length.toUInt32⟩ } }, .ok ())) ∨
    ((¬∃ l, m.loaded = some l ∧ 0 < length.toInt ∧
        l.arena.Admits (start.toUInt32, length.toUInt32)) ∧
      ∃ m' f, m.setHeap start length = (m', .error f) ∧ m.KeepsHeap m') := by
  rw [setHeap]
  cases hl : m.loaded with
  | none =>
    refine .inr ⟨?_, _, _, rfl, ⟨rfl, rfl⟩⟩
    rintro ⟨l, h, -⟩
    contradiction
  | some l =>
    dsimp only
    by_cases hempty : length ≤ 0
    · rw [if_pos hempty]
      have hle : length.toInt ≤ 0 := Int32.le_iff_toInt_le.mp hempty
      refine .inr ⟨?_, _, _, rfl, ⟨rfl, rfl⟩⟩
      rintro ⟨l', -, h, -⟩
      omega
    rw [if_neg hempty]
    have hlength : 0 < length.toInt := Int.not_le.mp fun h => hempty (Int32.le_iff_toInt_le.mpr h)
    by_cases hadmits : l.arena.Admits (start.toUInt32, length.toUInt32)
    · rw [validateRange_of_admits hl hadmits]
      exact .inl ⟨l, rfl, hlength, hadmits, by rw [← hl]⟩
    · obtain ⟨m', f, hcheck, -⟩ := exists_validateRange_error hl hadmits
      have hkeeps : m.KeepsHeap (m.validateRange start.toUInt32 length.toUInt32).1 :=
        Request.keepsHeap_perform (q := .validateRange ..) rfl m
      rw [hcheck] at hkeeps ⊢
      refine .inr ⟨?_, m', f, rfl, hkeeps⟩
      rintro ⟨l', hl', -, h⟩
      rw [← Option.some.inj hl'] at h
      exact hadmits h

/-! ## The invariant -/

/-- A machine has a pool as its heap: the words say where it starts, how far it is used and where it
ends, and it ends below the end of the arena. -/
structure Backs (m : Machine) (t : Pool) : Prop where
  sound : t.Sound
  loaded : ∃ l, m.loaded = some l ∧ t.stop < l.arena.size.toNat
  start : (m.status.heap.start.toNat : Int) = t.start
  next : (m.status.heap.next.toNat : Int) = t.top
  stop : (m.status.heap.stop.toNat : Int) = t.stop

/-- A machine has the pool as its heap, or no heap if there is no pool. -/
def BacksAny (m : Machine) : Option Pool → Prop
  | none => m.status.heap = {}
  | some t => m.Backs t

variable {m m' : Machine} {t : Pool}

theorem Backs.keepsHeap (h : m.Backs t) (hkeeps : m.KeepsHeap m') : m'.Backs t := by
  obtain ⟨hsound, ⟨l, hl, hroom⟩, hstart, hnext, hstop⟩ := h
  obtain ⟨a, hl', hmask⟩ := exists_loaded_of_fabric hkeeps.fabric hl
  rw [← hkeeps.heap] at hstart hnext hstop
  rw [Arena.toNat_size, ← hmask, ← Arena.toNat_size] at hroom
  exact ⟨hsound, ⟨_, hl', hroom⟩, hstart, hnext, hstop⟩

theorem BacksAny.keepsHeap {t : Option Pool} (h : m.BacksAny t) (hkeeps : m.KeepsHeap m') :
    m'.BacksAny t := by
  cases t with
  | none => exact hkeeps.heap.trans h
  | some t => exact Backs.keepsHeap h hkeeps

namespace Backs

theorem stop_lt (h : m.Backs t) : t.stop < 2 ^ 31 := by
  obtain ⟨l, -, hroom⟩ := h.loaded
  have hlt := l.arena.toNat_mask_lt
  rw [Arena.toNat_size] at hroom
  omega

theorem stop_ne_zero (h : m.Backs t) : m.status.heap.stop ≠ 0 := by
  intro hzero
  have hstop := h.stop
  have := h.sound.start_pos
  have := h.sound.length_pos
  rw [hzero, Pool.stop] at hstop
  exact absurd hstop (by have : (0 : UInt32).toNat = 0 := rfl; omega)

theorem toNat_align (h : m.Backs t) : ((align m.status.heap.next).toNat : Int) = t.next := by
  have hnext := h.next
  have := h.sound.top_le_stop
  have := h.stop_lt
  rw [Machine.toNat_align (by omega), Pool.next, ← hnext]
  omega

/-- **The heap has as many bytes in use as the pool.** -/
theorem toNat_used (h : m.Backs t) : (m.status.heap.used.toNat : Int) = t.used := by
  have hstart := h.start
  have hnext := h.next
  have hle := h.sound.start_le_top
  rw [Heap.used, UInt32.toNat_sub_of_le _ _ (UInt32.le_iff_toNat_le.mpr (by omega)), Pool.used]
  omega

/-- **What the pool has room for is handed out,** and nothing else is. -/
theorem malloc (h : m.Backs t) (size : Int32) :
    (0 ≤ size.toInt ∧ t.next + size.toInt ≤ t.stop ∧ ∃ m' address,
      m.malloc size = (m', .ok address) ∧ address.toInt32.toInt = t.next ∧
        m'.Backs (t.allot ⟨address.toInt32.toInt, size.toInt⟩)) ∨
    (¬(0 ≤ size.toInt ∧ t.next + size.toInt ≤ t.stop) ∧
      ∃ m' f, m.malloc size = (m', .error f) ∧ m.KeepsHeap m') := by
  obtain ⟨-, hsize, hfits, hmalloc⟩ | ⟨hnot, m', f, hmalloc, hkeeps⟩ := m.malloc_cases size
  · rw [h.toNat_align, h.stop] at hfits
    have hnext := h.toNat_align
    have hlt := h.stop_lt
    have haddress : (align m.status.heap.next).toInt32.toInt = t.next := by
      rw [Bytes.toInt_toInt32, if_pos (by omega), hnext]
    refine .inl ⟨hsize, hfits, _, _, hmalloc, haddress, ?_⟩
    rw [haddress]
    refine ⟨h.sound.allot hsize hfits, h.loaded, h.start, ?_, h.stop⟩
    have hnat := Bytes.toNat_toUInt32 hsize
    rw [UInt32.toNat_add, Nat.mod_eq_of_lt (by omega), Nat.cast_add, hnext, hnat]
    rfl
  · rw [h.toNat_align, h.stop] at hnot
    exact .inr ⟨fun hfits => hnot ⟨h.stop_ne_zero, hfits⟩, m', f, hmalloc, hkeeps⟩

theorem exists_malloc_ok_iff (h : m.Backs t) (size : Int32) :
    (∃ m' address, m.malloc size = (m', .ok address)) ↔
      0 ≤ size.toInt ∧ t.next + size.toInt ≤ t.stop := by
  obtain ⟨hsize, hfits, m', address, hmalloc, -⟩ | ⟨hnot, m', f, hmalloc, -⟩ := h.malloc size
  · exact ⟨fun _ => ⟨hsize, hfits⟩, fun _ => ⟨m', address, hmalloc⟩⟩
  · refine ⟨fun ⟨m₁, address, hok⟩ => ?_, fun hfits => absurd hfits hnot⟩
    rw [hmalloc] at hok
    cases (Prod.mk.inj hok).2

theorem address_eq (h : m.Backs t) {size : Int32} {address : UInt32}
    (hmalloc : m.malloc size = (m', .ok address)) : address.toInt32.toInt = t.next := by
  obtain ⟨-, -, m₁, address', hok, haddress, -⟩ | ⟨-, m₁, f, herror, -⟩ := h.malloc size
  · rw [hok] at hmalloc
    rw [← Except.ok.inj (Prod.mk.inj hmalloc).2, haddress]
  · rw [herror] at hmalloc
    cases (Prod.mk.inj hmalloc).2

end Backs

/-- An allocation that fails leaves the heap as it is. -/
theorem heap_of_malloc_error {size : Int32} {f : Failure} (h : m.malloc size = (m', .error f)) :
    m'.status.heap = m.status.heap := by
  obtain ⟨-, -, -, hok⟩ | ⟨-, m₁, f₁, herror, hkeeps⟩ := m.malloc_cases size
  · rw [hok] at h
    cases (Prod.mk.inj h).2
  · rw [herror] at h
    rw [← (Prod.mk.inj h).1, hkeeps.heap]

/-- A range that is refused leaves the heap as it is. -/
theorem heap_of_setHeap_error {start length : Int32} {f : Failure}
    (h : m.setHeap start length = (m', .error f)) : m'.status.heap = m.status.heap := by
  obtain ⟨l, -, -, -, hok⟩ | ⟨-, m₁, f₁, herror, hkeeps⟩ := m.setHeap_cases start length
  · rw [hok] at h
    cases (Prod.mk.inj h).2
  · rw [herror] at h
    rw [← (Prod.mk.inj h).1, hkeeps.heap]

/-- Without a heap nothing is handed out. -/
theorem exists_malloc_error (h : m.status.heap = {}) (size : Int32) :
    ∃ m' f, m.malloc size = (m', .error f) ∧ m.KeepsHeap m' := by
  obtain ⟨hstop, -⟩ | ⟨-, hrefused⟩ := m.malloc_cases size
  · rw [h] at hstop
    exact absurd rfl hstop
  · exact hrefused

/-- A range that is set is a pool with nothing handed out. -/
theorem backs_setHeap {l : Loaded} (hl : m.loaded = some l) {start length : Int32}
    (hlength : 0 < length.toInt) (hadmits : l.arena.Admits (start.toUInt32, length.toUInt32)) :
    Backs { m with status := { m.status with heap :=
        ⟨start.toUInt32, start.toUInt32, start.toUInt32 + length.toUInt32⟩ } }
      ⟨start.toInt, length.toInt, []⟩ := by
  obtain ⟨hnull, hroom⟩ := hadmits
  dsimp only at hnull hroom
  have hlt := l.arena.toNat_mask_lt
  have hsize := l.arena.toNat_size
  have hnat := Bytes.toNat_toUInt32 (Int.le_of_lt hlength)
  have hpos : start.toUInt32.toNat ≠ 0 := fun h => hnull (UInt32.toNat_inj.mp h)
  have hstart : start.toInt = start.toUInt32.toNat := by
    have hread := Bytes.toInt_toInt32 start.toUInt32
    rwa [Int32.toInt32_toUInt32, if_pos (by omega)] at hread
  -- the range ends in the arena, so neither its end nor the sign of its start can be lost
  have hsum : (start.toUInt32 + length.toUInt32).toNat
      = start.toUInt32.toNat + length.toUInt32.toNat := by
    rw [UInt32.toNat_add]
    exact Nat.mod_eq_of_lt (by omega)
  refine ⟨.of_pos (by omega) hlength, ⟨l, hl, ?_⟩, hstart.symm, hstart.symm, ?_⟩
  · show start.toInt + length.toInt < l.arena.size.toNat
    omega
  · show ((start.toUInt32 + length.toUInt32).toNat : Int) = start.toInt + length.toInt
    omega

/-- **Every request keeps the invariant.** -/
theorem backsAny_perform {t : Option Pool} (h : m.BacksAny t) (q : Request) :
    (q.perform m).1.BacksAny ((q.heapEvent? (q.perform m).2).elim t (Pool.after t)) := by
  cases q with
  | free =>
    simp only [Request.perform, free]
    split
    · exact h.keepsHeap ⟨rfl, rfl⟩
    · rfl
  | setHeap start length =>
    rw [Request.perform]
    obtain ⟨l, hl, hlength, hadmits, hset⟩ | ⟨-, m', f, hset, hkeeps⟩ :=
      m.setHeap_cases start length
    · rw [hset]
      exact backs_setHeap hl hlength hadmits
    · rw [hset]
      exact h.keepsHeap hkeeps
  | malloc size =>
    rw [Request.perform]
    cases t with
    | none =>
      obtain ⟨m', f, hmalloc, hkeeps⟩ := exists_malloc_error h size
      rw [hmalloc]
      exact hkeeps.heap.trans h
    | some t =>
      obtain ⟨-, -, m', address, hmalloc, -, hbacks⟩ | ⟨-, m', f, hmalloc, hkeeps⟩ :=
        Backs.malloc h size
      · rw [hmalloc]
        exact hbacks
      · rw [hmalloc]
        exact Backs.keepsHeap h hkeeps
  | _ => exact h.keepsHeap (Request.keepsHeap_perform rfl m)

end Machine

/-! ## Calls -/

namespace Machine

/-- The end of a call leaves the heap as it is. -/
theorem keepsHeap_ended {m : Machine} (before : Status) {e : Ended σ} (h : m.KeepsHeap e.machine) :
    m.KeepsHeap (Focus.ended before e).machine := by
  obtain ⟨m', s, value, _ | f⟩ := e
  · exact ⟨h.fabric, h.heap⟩
  · exact ⟨h.fabric, h.heap⟩

/-- So does the start. -/
theorem keepsHeap_start (m : Machine) (s : σ) (c : Invocation) :
    m.KeepsHeap (Focus.start m s c).machine := by
  rw [Focus.start]
  obtain ⟨l, a, hl, ha, x, hx, hm⟩ | ⟨r, lastError, events, hrefused⟩ := m.accept_cases c
  · rw [hx]
    obtain ⟨l', status⟩ := m
    obtain rfl : l' = some l := hl
    rw [Focus.machine, hm]
    exact ⟨fabric_eq_of_mask ha rfl, rfl⟩
  · rw [hrefused]
    exact ⟨rfl, rfl⟩

/-- So does an instruction. -/
theorem keepsHeap_advance (host : Host σ) (before : Status) (i : Option Interruption)
    (x : Activation) (s : σ) : x.machine.KeepsHeap (Focus.advance host before i x s).machine := by
  obtain ⟨a, status, hmask, ⟨breakCount, programStack, rfl⟩, hx⟩ := x.advance_cases i s
  have hkeeps : x.machine.KeepsHeap ⟨some ⟨x.program, a⟩,
      { x.status with meter := x.charged, breakCount, programStack }⟩ :=
    ⟨fabric_eq_of_mask hmask rfl, rfl⟩
  rw [Focus.advance]
  obtain ⟨y, hy, hm⟩ | ⟨value, fault, hx⟩ | ⟨trap, hx, -⟩ := hx
  · rw [hy, Focus.machine, hm]
    exact hkeeps
  · rw [hx]
    exact keepsHeap_ended before hkeeps
  · rw [hx]
    exact hkeeps

/-- So does the answer to a trap. -/
theorem keepsHeap_answer (before : Status) (trap : Pending) (m : Machine) (s : σ)
    (reply : TrapReply) : m.KeepsHeap (Focus.answer before trap m s reply).machine := by
  rw [Focus.answer]
  obtain ⟨x, hx, hm⟩ | ⟨value, fault, hx⟩ := trap.resume_cases m s reply
  · rw [hx, Focus.machine, hm]
    exact ⟨rfl, rfl⟩
  · rw [hx]
    exact keepsHeap_ended before ⟨rfl, rfl⟩

end Machine

/-- **Every step of a call keeps the invariant,** whatever the host does. -/
theorem Point.backsAny_step {γ : Point σ} {t : Option Pool} (h : γ.machine.BacksAny t)
    (host : Host σ) :
    (γ.step host).machine.BacksAny (γ.heapEvent?.elim t (Pool.after t)) := by
  obtain ⟨φ, callers⟩ := γ
  cases φ with
  | executing before i x s =>
    exact Machine.BacksAny.keepsHeap h (Machine.keepsHeap_advance host before i x s)
  | handling before trap script m =>
    cases script with
    | done s reply =>
      exact Machine.BacksAny.keepsHeap h (Machine.keepsHeap_answer before trap m s reply)
    | ask q k => exact Machine.backsAny_perform h q
    | call s c k => exact Machine.BacksAny.keepsHeap h (Machine.keepsHeap_start m s c)
  | returning m s r => cases callers <;> exact h

namespace Machine.History

variable {m : Machine} {es : List HeapEvent}

/-- **The invariant holds in the whole life of a machine.** -/
theorem backsAny (h : m.History es) : m.BacksAny (Pool.ofEvents es) := by
  induction h with
  | create mod limit => rfl
  | request h q ih =>
    rw [Pool.ofEvents_append_toList]
    exact backsAny_perform ih q
  | call h s c ih => exact ih.keepsHeap (keepsHeap_start _ s c)
  | step h host ih =>
    rw [Pool.ofEvents_append_toList]
    exact Point.backsAny_step ih host

theorem steps {γ : Point σ} (h : History γ.machine es) (host : Host σ) (n : Nat) :
    History (γ.steps host n).machine (es ++ γ.heapEvents host n) := by
  induction n generalizing γ es with
  | zero => rwa [Point.heapEvents, List.append_nil]
  | succ n ih =>
    rw [Point.heapEvents, ← List.append_assoc]
    exact ih (h.step host)

/-- A call that returns adds to the events. -/
theorem exists_of_call (h : m.History es) {host : Host σ} {fuel : Nat} {m' : Machine} {s s' : σ}
    {c : Invocation} {r : CallResult} (hcall : Machine.call host fuel m s c = some (m', s', r)) :
    ∃ es', m'.History (es ++ es') := by
  obtain ⟨n, hn⟩ := (Point.call_iff_steps host m s c (m', s', r)).mp ⟨fuel, hcall⟩
  have hsteps := (h.call s c).steps host n
  rw [hn] at hsteps
  exact ⟨_, hsteps⟩

/-- **What a heap does.** Take a machine at any point of its life. The range of its heap is the one
that was set last, and lies in the arena. What has been handed out since is aligned, lies in that
range and does not overlap, so that nothing is at null, and the bytes in use are counted up to its
end. A block of any size is handed out exactly if there is room for it from the next multiple of
four on; without a heap there never is. Requests that fail leave the heap as it is. The allocating
trap makes one allocation and answers with its address. -/
theorem heap_of_pool (h : m.History es) :
    (match Pool.ofEvents es with
      | none => m.status.heap.used = 0 ∧ ∀ size, ∃ m' f, m.malloc size = (m', .error f)
      | some t => t.Sound ∧ (∃ l, m.loaded = some l ∧ t.stop < l.arena.size.toNat) ∧
          (m.status.heap.used.toNat : Int) = t.used ∧ t.used ≤ t.length ∧
          (∀ size : Int32, (∃ m' address, m.malloc size = (m', .ok address)) ↔
            0 ≤ size.toInt ∧ t.next + size.toInt ≤ t.stop) ∧
          ∀ size m' address, m.malloc size = (m', .ok address) → address.toInt32.toInt = t.next) ∧
    (∀ size m' f, m.malloc size = (m', .error f) → m'.status.heap = m.status.heap) ∧
    (∀ start length m' f, m.setHeap start length = (m', .error f) →
      m'.status.heap = m.status.heap) ∧
    ∀ (write : StandardTrap.Writer σ) (clock : HostM σ Int64) (words : Array UInt32) (s : σ)
      (callBack : Machine → σ → Invocation → Option (Machine × σ × CallResult)),
      (words.getD 0 0).toInt32 = 4 →
        ((Registry.standard write clock).host words s).run callBack m
          = some ((m.malloc (words.getD 1 0).toInt32).1, s,
              StandardTrap.allocated (m.malloc (words.getD 1 0).toInt32).2) := by
  refine ⟨?_, fun _ _ _ => heap_of_malloc_error, fun _ _ _ _ => heap_of_setHeap_error, ?_⟩
  · have hbacks := h.backsAny
    cases ht : Pool.ofEvents es with
    | none =>
      rw [ht] at hbacks
      have hheap : m.status.heap = {} := hbacks
      refine ⟨by rw [hheap]; rfl, fun size => ?_⟩
      obtain ⟨m', f, hmalloc, -⟩ := exists_malloc_error hheap size
      exact ⟨m', f, hmalloc⟩
    | some t =>
      rw [ht] at hbacks
      have hbacks : m.Backs t := hbacks
      exact ⟨hbacks.sound, hbacks.loaded, hbacks.toNat_used, hbacks.sound.used_le,
        hbacks.exists_malloc_ok_iff, fun _ _ _ => hbacks.address_eq⟩
  · intro write clock words s callBack hnumber
    rw [Registry.host_of_find? hnumber rfl]
    exact StandardTrap.run_malloc callBack m s words

/-- A module that asks for as many bytes as its command says. -/
def sampleModule : Module where
  name := "sample"
  header := ⟨Header.moduleMagic, 3, 32, 11, 43, 0, 0, 0⟩
  program := ⟨#[Opcode.constant.toByte.toUInt32, 0xFFFFFFFB, Opcode.call.toByte.toUInt32,
    Opcode.leave.toByte.toUInt32, 0, 0], #[0, 2, 3]⟩
  arena :=
    { bytes := Bytes.zeros 132
      mask := 127
      isPowerOfTwo := ⟨7, by decide, by decide⟩
      size_bytes := by simp }

/-- The standard traps, printing nothing. -/
def sampleHost : Host Unit :=
  (Registry.standard (fun _ => pure (.ok ())) (pure 0)).host

/-- The range starts at five, and the host has asked for one byte and, in vain, for a hundred. -/
def sampleMachine : Machine :=
  let m := ((Machine.create sampleModule 0).setHeap 5 20).1
  ((m.malloc 1).1.malloc 100).1

/-- The module asks for three bytes more. -/
def sampleCall : Point Unit :=
  .start sampleMachine () ⟨3, [], none⟩

/-- Three bytes after the one, at the next multiple of four; nine are left then. -/
theorem heap_of_pool_sample :
    ∃ es t, History (sampleCall.steps sampleHost 4).machine es ∧
      Pool.ofEvents es = some t ∧ t.allotments = [⟨12, 3⟩, ⟨8, 1⟩] ∧ t.Sound ∧
      ((sampleCall.steps sampleHost 4).machine.status.heap.used.toNat : Int) = 10 ∧
      (∃ m' address, (sampleCall.steps sampleHost 4).machine.malloc 9 = (m', .ok address)) ∧
      ¬∃ m' address, (sampleCall.steps sampleHost 4).machine.malloc 10 = (m', .ok address) := by
  have hbefore : History sampleMachine [.set 5 20, .allot 1 8] := by
    refine Eq.mp (congrArg (History sampleMachine) ?_)
      ((((create sampleModule 0).request (.setHeap 5 20)).request (.malloc 1)).request
        (.malloc 100))
    decide +kernel
  have hcall : History sampleCall.machine [.set 5 20, .allot 1 8] := hbefore.call () ⟨3, [], none⟩
  have hevents : sampleCall.heapEvents sampleHost 4 = [.allot 3 12] := by decide +kernel
  have hpool : Pool.ofEvents ([.set 5 20, .allot 1 8] ++ [.allot 3 12])
      = some ⟨5, 20, [⟨12, 3⟩, ⟨8, 1⟩]⟩ := by decide
  have h := hcall.steps sampleHost 4
  rw [hevents] at h
  have hheap := (heap_of_pool (σ := Unit) h).1
  rw [hpool] at hheap
  dsimp only at hheap
  obtain ⟨hsound, -, hused, -, hmalloc, -⟩ := hheap
  exact ⟨_, _, h, hpool, rfl, hsound, hused.trans (by decide), (hmalloc 9).mpr (by decide),
    fun hten => absurd ((hmalloc 10).mp hten) (by decide)⟩

end Machine.History

end BytecodeHost
