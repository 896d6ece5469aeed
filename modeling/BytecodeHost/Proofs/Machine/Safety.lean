import BytecodeHost.Proofs.Arena
import BytecodeHost.Proofs.Image.Format
import BytecodeHost.Proofs.Machine.Running

/-!
# Calls stay in range

An activation takes program counters from the arena: a return address is a word that the module or
its host may have overwritten. It can therefore start in the middle of an instruction, where an
immediate is taken for an opcode and the word after it for an operand. What saves it is the zero
word at the end of the stream. Zero is the opcode `undef`, which reads nothing further, so wherever
an opcode with an immediate is found, a word follows.

Execution is written once more with every access checked. At every moment of every call the checked
and the unchecked version agree, so no access is out of range, whatever the arena holds and
whatever the host does.

## Main definitions

* `Program.Padded` — a stream that ends with a zero word, and a table that is long enough
* `Checked.step`, `Checked.pushFrame`, `Checked.loadWords` — execution with checked accesses
* `Moment.Safe` — the accesses of a moment are in range, and an activation ends as it should

## Main results

* `Checked.step_safe` — an instruction stays in range wherever it is found
* `Engine.observe_safe` — every moment of an activation is safe
* `Machine.call_safe` — every moment of a call is safe
-/

namespace BytecodeHost

/-- A stream that ends with a zero word, and a table with a place for every index below the
count. -/
structure Program.Padded (p : Program) (count : Int32) : Prop where
  /-- The stream is shorter than the words can count. -/
  size_lt : p.code.size < 2 ^ 32
  /-- The last word is zero. -/
  last : p.code.back? = some 0
  /-- The table has an entry for every index below the count. -/
  count_lt : count.toUInt32.toNat < p.offsets.size

theorem Program.Linked.padded {p : Program} {I : List Instruction} {count : Int32}
    (h : p.Linked I) (hcount : count.toUInt32.toNat = I.length) : p.Padded count where
  size_lt := by
    have := h.place_lt
    rw [h.size_code]
    omega
  last := by rw [Array.back?_eq_getElem?, h.size_code, Nat.add_sub_cancel, h.pad]
  count_lt := by
    rw [hcount, h.size_offsets]
    omega

/-- **After every opcode but `undef` there is a word.** -/
theorem Program.Padded.exists_next {p : Program} {count : Int32} (h : p.Padded count)
    {pc word : UInt32} {op : Opcode} (hword : p.code[pc.toNat]? = some word)
    (hop : Opcode.ofByte? word.toUInt8 = some op) (hundef : op ≠ .undef) :
    ∃ w, p.code[(pc + 1).toNat]? = some w := by
  obtain ⟨hlt, hget⟩ := Array.getElem?_eq_some_iff.mp hword
  have hsize := h.size_lt
  have hnotLast : pc.toNat + 1 ≠ p.code.size := by
    -- at the last place the word is zero, which is `undef`
    intro hend
    have hlast := h.last
    rw [Array.back?_eq_getElem?, ← hend, Nat.add_sub_cancel, hword] at hlast
    obtain rfl := Option.some.inj hlast
    exact hundef (Option.some.inj hop).symm
  have hnext : (pc + 1).toNat = pc.toNat + 1 := by
    rw [UInt32.toNat_add, UInt32.toNat_one]
    omega
  rw [hnext]
  exact ⟨_, Array.getElem?_eq_getElem (by omega)⟩

/-! ## Checked execution -/

namespace Checked

/-- A divisor is not zero. -/
def divisor (x : UInt32) : Except Violation Unit :=
  if x = 0 then .error .divisor else .ok ()

theorem divisor_eq_ok {x : UInt32} (h : x ≠ 0) : divisor x = .ok () :=
  if_neg h

/-- The word at a masked address. -/
def load4 (a : Arena) (address : UInt32) : Except Violation UInt32 := do
  access a address 4
  return a.load4 address

@[simp] theorem load4_eq_ok (a : Arena) (address : UInt32) :
    load4 a address = .ok (a.load4 address) := by
  rw [load4, access_eq_ok a address (Nat.le_refl _)]
  rfl

/-- Copies a range that needs no masking. -/
def moveBytes (a : Arena) (dst src length : UInt32) : Except Violation Arena := do
  range a.bytes dst.toNat (dst + length).toNat
  range a.bytes src.toNat (src + length).toNat
  return a.moveBytes dst src length

theorem moveBytes_eq_ok {a : Arena} {dst src length : UInt32}
    (hdst : a.inRange dst length = true) (hsrc : a.inRange src length = true) :
    moveBytes a dst src length = .ok (a.moveBytes dst src length) := by
  have hsize := a.size_bytes
  have inside : ∀ x : UInt32, a.inRange x length = true →
      range a.bytes x.toNat (x + length).toNat = .ok () := by
    intro x hx
    have hle := Arena.inRange_iff.mp hx
    have hmask := a.mask.toNat_lt
    rw [UInt32.toNat_add, Nat.mod_eq_of_lt (by omega)]
    exact range_eq_ok (by omega) (by omega) (by omega)
  rw [moveBytes, inside dst hdst, ok_bind, inside src hsrc, ok_bind]
  rfl

/-- Executes the instruction `op` whose opcode word stands just before `pc`. -/
def execute (p : Program) (count : Int32) (op : Opcode) (pc frame : UInt32) (s : Operands)
    (a : Arena) : Except Violation Effect := do
  let r₀ := s.first
  let r₁ := s.second
  match op.shape with
  | .invalid => return .fault (.badInstruction op.toByte (pc - 1)) a
  | .ignore => return .next ⟨pc, frame, s⟩ a
  | .breakpoint => return .broke ⟨pc, frame, s⟩ a
  | .constant =>
    let w ← get p.code pc.toNat
    return .next ⟨pc + 1, frame, s.push w⟩ a
  | .frameAddress =>
    let w ← get p.code pc.toNat
    return .next ⟨pc + 1, frame, s.push (w + frame)⟩ a
  | .load1 =>
    access a r₀ 1
    return .next ⟨pc, frame, s.setFirst (a.load1 r₀).toUInt32⟩ a
  | .load2 =>
    access a r₀ 2
    return .next ⟨pc, frame, s.setFirst (a.load2 r₀).toUInt32⟩ a
  | .load4 =>
    let w ← load4 a r₀
    return .next ⟨pc, frame, s.setFirst w⟩ a
  | .store1 =>
    access a r₁ 1
    return .next ⟨pc, frame, s.drop 2⟩ (a.store1 r₁ r₀.toUInt8)
  | .store2 =>
    access a r₁ 2
    return .next ⟨pc, frame, s.drop 2⟩ (a.store2 r₁ r₀.toUInt16)
  | .store4 =>
    let a ← store4 a r₁ r₀
    return .next ⟨pc, frame, s.drop 2⟩ a
  | .argument =>
    let w ← get p.code pc.toNat
    let a ← store4 a (w + frame) r₀
    return .next ⟨pc + 1, frame, s.drop 1⟩ a
  | .blockCopy =>
    let w ← get p.code pc.toNat
    if a.inRange r₁ w && a.inRange r₀ w then
      let a ← moveBytes a r₁ r₀ w
      return .next ⟨pc + 1, frame, s.drop 2⟩ a
    else
      return .fault (.blockCopy (.copy r₁ r₀ w)) a
  | .call =>
    let a ← store4 a frame pc
    if r₀.toInt32 < 0 then
      let a ← store4 a (frame + 4) (returnMarker - r₀)
      return .trap ⟨pc, frame, s.drop 1⟩ a
    else if count.toUInt32 ≤ r₀ then
      return .fault (.callTarget r₀ count) a
    else
      let pc ← get p.offsets r₀.toNat
      return .next ⟨pc, frame, s.drop 1⟩ a
  | .push => return .next ⟨pc, frame, s.raise⟩ a
  | .pop => return .next ⟨pc, frame, s.drop 1⟩ a
  | .enter =>
    let w ← get p.code pc.toNat
    return .next ⟨pc + 1, frame - w, s⟩ a
  | .leave =>
    let w ← get p.code pc.toNat
    let back ← load4 a (frame + w)
    if back = returnMarker then
      return .finish s a
    else if back.toNat < p.code.size then
      return .next ⟨back, frame + w, s⟩ a
    else
      return .fault (.returnTarget back p.code.size) a
  | .jump =>
    if count.toUInt32 ≤ r₀ then
      return .fault (.jumpTarget r₀ count) a
    else
      let pc ← get p.offsets r₀.toNat
      return .next ⟨pc, frame, s.drop 1⟩ a
  | .branch =>
    if op.holds r₁ r₀ then
      let w ← get p.code pc.toNat
      return .next ⟨w, frame, s.drop 2⟩ a
    else
      return .next ⟨pc + 1, frame, s.drop 2⟩ a
  | .unary => return .next ⟨pc, frame, s.setFirst (op.unary r₀)⟩ a
  | .binary => return .next ⟨pc, frame, (s.drop 1).setFirst (op.binary r₁ r₀)⟩ a
  | .divide =>
    if r₀ = 0 then
      return .fault (.divisionByZero op (pc - 1)) a
    else
      divisor r₀
      return .next ⟨pc, frame, (s.drop 1).setFirst (op.divide r₁ r₀)⟩ a

/-- Executes the instruction at the program counter. -/
def step (p : Program) (count : Int32) (r : Registers) (a : Arena) : Except Violation Effect := do
  let word ← get p.code r.pc.toNat
  match Opcode.ofByte? word.toUInt8 with
  | none => return .fault (.badInstruction word.toUInt8 r.pc) a
  | some op => execute p count op (r.pc + 1) r.frame r.operands a

/-- Writes words to consecutive addresses. -/
def storeWords (a : Arena) (address : UInt32) : List UInt32 → Except Violation Arena
  | [] => .ok a
  | w :: ws => do
    let a ← store4 a address w
    storeWords a (address + 4) ws

/-- Writes the frame of a call. -/
def pushFrame (a : Arena) (frame : UInt32) (c : Invocation) : Except Violation Arena := do
  let a ← storeWords a (frame + 8) c.words
  let a ← store4 a (frame + 4) 0
  store4 a frame returnMarker

/-- The words from an address on. -/
def loadWords (a : Arena) (address : UInt32) : Nat → Array UInt32 →
    Except Violation (Array UInt32)
  | 0, ws => .ok ws
  | n + 1, ws => do
    let w ← load4 a address
    loadWords a (address + 4) n (ws.push w)

theorem storeWords_eq_ok (a : Arena) (address : UInt32) (ws : List UInt32) :
    storeWords a address ws = .ok (a.storeWords address ws) := by
  induction ws generalizing a address with
  | nil => rfl
  | cons w ws ih => rw [storeWords, store4_eq_ok, ok_bind, ih, Arena.storeWords]

theorem pushFrame_eq_ok (a : Arena) (frame : UInt32) (c : Invocation) :
    pushFrame a frame c = .ok (a.pushFrame frame c) := by
  rw [pushFrame, storeWords_eq_ok, ok_bind, store4_eq_ok, ok_bind, store4_eq_ok, Arena.pushFrame]

theorem loadWords_eq_ok (a : Arena) (address : UInt32) (n : Nat) (ws : Array UInt32) :
    loadWords a address n ws = .ok (a.loadWords address n ws) := by
  induction n generalizing address ws with
  | zero => rfl
  | succ n ih => rw [loadWords, load4_eq_ok, ok_bind, ih, Arena.loadWords]

end Checked

/-! ## Ends -/

/-- A fault that an activation may end with: no access was impossible, and if the host gave up, it
is a host that may. -/
def Fault.Permitted {σ : Type} (host : Host σ) : Fault → Prop
  | stuck _ => False
  | hostPanic .. => host.MayPanic
  | _ => True

/-- An effect of an instruction that lacked nothing. -/
def Effect.Permitted {σ : Type} (host : Host σ) : Effect → Prop
  | stuck _ => False
  | fault f _ => f.Permitted host
  | _ => True

namespace Checked

variable {σ : Type} {p : Program} {count : Int32}

/-- **An instruction stays in range** if a word follows its opcode. -/
theorem execute_safe (host : Host σ) (hp : p.Padded count) {op : Opcode} {pc : UInt32}
    (hnext : op ≠ .undef → ∃ w, p.code[pc.toNat]? = some w) (frame : UInt32) (s : Operands)
    (a : Arena) :
    execute p count op pc frame s a = .ok (BytecodeHost.execute p count op pc frame s a) ∧
      (BytecodeHost.execute p count op pc frame s a).Permitted host := by
  have himm : op.shape ≠ .invalid → ∃ w, p.code[pc.toNat]? = some w := by
    intro hshape
    refine hnext fun hop => hshape ?_
    rw [hop]
    rfl
  have htable : ∀ r₀ : UInt32, ¬count.toUInt32 ≤ r₀ → ∃ w, p.offsets[r₀.toNat]? = some w := by
    intro r₀ hr₀
    have hcount := hp.count_lt
    rw [UInt32.le_iff_toNat_le] at hr₀
    exact ⟨_, Array.getElem?_eq_getElem (by omega)⟩
  have hload1 := access_eq_ok a s.first (n := 1) (by omega)
  have hload2 := access_eq_ok a s.first (n := 2) (by omega)
  have hstore1 := access_eq_ok a s.second (n := 1) (by omega)
  have hstore2 := access_eq_ok a s.second (n := 2) (by omega)
  rw [execute, BytecodeHost.execute]
  cases hshape : op.shape with
  | invalid | ignore | breakpoint | push | pop | unary | binary => exact ⟨rfl, trivial⟩
  | load1 =>
    simp only [hload1, ok_bind]
    exact ⟨rfl, trivial⟩
  | load2 =>
    simp only [hload2, ok_bind]
    exact ⟨rfl, trivial⟩
  | store1 =>
    simp only [hstore1, ok_bind]
    exact ⟨rfl, trivial⟩
  | store2 =>
    simp only [hstore2, ok_bind]
    exact ⟨rfl, trivial⟩
  | load4 | store4 =>
    simp only [load4_eq_ok, store4_eq_ok, ok_bind]
    exact ⟨rfl, trivial⟩
  | constant | frameAddress | argument | enter =>
    obtain ⟨w, hw⟩ := himm (by simp [hshape])
    simp only [withImmediate, hw, get_eq_ok hw, store4_eq_ok, ok_bind]
    exact ⟨rfl, trivial⟩
  | blockCopy =>
    obtain ⟨w, hw⟩ := himm (by simp [hshape])
    simp only [withImmediate, hw, get_eq_ok hw, ok_bind]
    split
    · rename_i h
      obtain ⟨hdst, hsrc⟩ := Bool.and_eq_true_iff.mp h
      rw [moveBytes_eq_ok hdst hsrc, ok_bind]
      exact ⟨rfl, trivial⟩
    · exact ⟨rfl, trivial⟩
  | call =>
    simp only [store4_eq_ok, ok_bind]
    split
    · exact ⟨rfl, trivial⟩
    · split
      · exact ⟨rfl, trivial⟩
      · rename_i h
        obtain ⟨w, hw⟩ := htable _ h
        simp only [toInstruction, hw, get_eq_ok hw, ok_bind]
        exact ⟨rfl, trivial⟩
  | leave =>
    obtain ⟨w, hw⟩ := himm (by simp [hshape])
    simp only [withImmediate, hw, get_eq_ok hw, load4_eq_ok, ok_bind]
    split
    · exact ⟨rfl, trivial⟩
    · split <;> exact ⟨rfl, trivial⟩
  | jump =>
    dsimp only
    split
    · exact ⟨rfl, trivial⟩
    · rename_i h
      obtain ⟨w, hw⟩ := htable _ h
      simp only [toInstruction, hw, get_eq_ok hw, ok_bind]
      exact ⟨rfl, trivial⟩
  | branch =>
    obtain ⟨w, hw⟩ := himm (by simp [hshape])
    simp only [withImmediate, hw, get_eq_ok hw, ok_bind]
    split <;> exact ⟨rfl, trivial⟩
  | divide =>
    dsimp only
    split
    · exact ⟨rfl, trivial⟩
    · rename_i h
      rw [divisor_eq_ok h, ok_bind]
      exact ⟨rfl, trivial⟩

/-- **An instruction stays in range wherever it is found**, in the middle of another one or at the
zero word that ends the stream. -/
theorem step_safe (host : Host σ) (hp : p.Padded count) {r : Registers}
    (hpc : r.pc.toNat < p.code.size) (a : Arena) :
    step p count r a = .ok (BytecodeHost.step p count r a) ∧
      (BytecodeHost.step p count r a).Permitted host := by
  obtain ⟨word, hword⟩ : ∃ word, p.code[r.pc.toNat]? = some word :=
    ⟨_, Array.getElem?_eq_getElem hpc⟩
  rw [step, BytecodeHost.step, get_eq_ok hword, ok_bind, hword]
  dsimp only
  cases hop : Opcode.ofByte? word.toUInt8 with
  | none => exact ⟨rfl, trivial⟩
  | some op => exact execute_safe host hp (hp.exists_next hword hop) r.frame r.operands a

end Checked

/-! ## Activations and calls -/

/-- The accesses of a moment are in range, and an activation ends as it should. -/
def Moment.Safe {σ : Type} (host : Host σ) : Moment → Prop
  | entered a frame c => Checked.pushFrame a frame c = .ok (a.pushFrame frame c)
  | dispatched p count r a => Checked.step p count r a = .ok (step p count r a)
  | trapped a frame =>
    Checked.loadWords a (frame + 4) trapWords #[] = .ok (a.loadWords (frame + 4) trapWords #[])
  | resumed a frame => Checked.load4 a frame = .ok (a.load4 frame)
  | ended fault => ∀ f, fault = some f → f.Permitted host

/-- An activation ended with its program still there and with a fault that is permitted. -/
def Ended.Safe {σ : Type} (host : Host σ) (p : Program) (count : Int32) (level : Nat)
    (e : Ended σ) : Prop :=
  e.machine.Runs p count level ∧ ∀ f, e.fault = some f → f.Permitted host

namespace Engine

variable {σ : Type} (host : Host σ) {p : Program} {count : Int32} {level : Nat}

/-- Accounting keeps the program and the registers, its faults are permitted, and it lets no program
counter pass that is outside the stream. -/
theorem accountBy_stream_cases {x y : Activation} {interruption : Option Interruption}
    {fault : Option Fault} (h : x.accountBy stream interruption = (y, fault))
    (hx : x.machine.Runs p count level) :
    y.machine.Runs p count level ∧ y.registers = x.registers ∧
      (∀ f, fault = some f → f.Permitted host) ∧
      (fault = none → y.registers.pc.toNat < y.program.code.size) := by
  rw [Activation.accountBy] at h
  split at h
  · obtain ⟨rfl, rfl⟩ := Prod.mk.inj h
    refine ⟨hx, rfl, fun f hf => ?_, by simp⟩
    obtain rfl := Option.some.inj hf
    trivial
  · rename_i hpc
    obtain ⟨meter, executed, fault', hcharge, hfault⟩ := x.charge_cases interruption
    rw [hcharge] at h
    obtain ⟨rfl, rfl⟩ := Prod.mk.inj h
    refine ⟨⟨hx.loaded, hx.instructionCount, hx.callLevel⟩, rfl, fun f hf => ?_,
      fun _ => Nat.lt_of_not_le hpc⟩
    obtain rfl | ⟨reason, rfl⟩ | ⟨name, used, rfl⟩ := hfault
    · contradiction
    · obtain rfl := Option.some.inj hf
      trivial
    · obtain rfl := Option.some.inj hf
      trivial

/-- **Every moment of an activation is safe.** -/
theorem observe_safe (hp : p.Padded count) (hlevel : level ≠ 0) (fuel : Nat)
    (interruption : Option Interruption) (x : Activation) (s : σ)
    (hx : x.machine.Runs p count level) :
    (stream.observe host fuel interruption x s).Meets (Moment.Safe host)
      (Ended.Safe host p count level) := by
  induction fuel generalizing interruption x s level with
  | zero => exact .exhausted
  | succ fuel ih =>
    rw [observe]
    generalize haccount : x.accountBy stream interruption = y
    obtain ⟨⟨program, arena, status, registers, executed⟩, fault⟩ := y
    obtain ⟨hruns, -, hfault, hpc⟩ := accountBy_stream_cases host haccount hx
    obtain rfl : program = p := hruns.program_eq
    obtain rfl : status.instructionCount = count := hruns.instructionCount
    cases fault with
    | some f => exact .give ⟨hruns, hfault⟩
    | none =>
      obtain ⟨hchecked, heffect⟩ := Checked.step_safe host hp (hpc rfl) arena
      refine .note hchecked ?_
      rw [show stream.step = BytecodeHost.step from rfl]
      cases hstep : BytecodeHost.step program status.instructionCount registers arena with
      | next registers arena => exact ih hlevel _ _ _ ⟨⟨arena, rfl⟩, rfl, hruns.callLevel⟩
      | broke registers arena => exact ih hlevel _ _ _ ⟨⟨arena, rfl⟩, rfl, hruns.callLevel⟩
      | finish operands arena =>
        refine .give ?_
        rw [Activation.finish]
        split
        · exact ⟨⟨⟨arena, rfl⟩, rfl, hruns.callLevel⟩, by simp⟩
        · refine ⟨⟨⟨arena, rfl⟩, rfl, hruns.callLevel⟩, fun f hf => ?_⟩
          obtain rfl := Option.some.inj hf
          trivial
      | fault f arena =>
        rw [hstep] at heffect
        refine .give ⟨⟨⟨arena, rfl⟩, rfl, hruns.callLevel⟩, fun f' hf => ?_⟩
        obtain rfl := Option.some.inj hf
        exact heffect
      | stuck arena =>
        rw [hstep] at heffect
        exact heffect.elim
      | trap r arena =>
        obtain ⟨_, frame, operands⟩ := r
        refine .note (Checked.loadWords_eq_ok _ _ _ _) ?_
        have hcall : ∀ (m : Machine) (s : σ) (c : Invocation),
            m.Runs program status.instructionCount level →
              (m.observe (stream.observe host fuel) s c).Meets (Moment.Safe host)
                fun y => y.1.Runs program status.instructionCount level :=
          fun m s c hm =>
            Machine.observe_meets Checked.pushFrame_eq_ok (fun _ he => ⟨he.2, he.1⟩)
              (fun i x s hx => ih (Nat.succ_ne_zero level) i x s hx) hm s c
        have hm : Machine.Runs program status.instructionCount level
            ⟨some ⟨program, arena⟩, { status with programStack := frame - 4 }⟩ :=
          ⟨⟨arena, rfl⟩, rfl, hruns.callLevel⟩
        refine (Script.observe_meets (Request.runs_perform hlevel) hcall _ hm).andThen ?_
        rintro ⟨m, s, v | f | message⟩ ⟨hm, hyields⟩
        · obtain ⟨l, status'⟩ := m
          obtain ⟨arena', rfl : l = some ⟨program, arena'⟩⟩ := hm.loaded
          refine .note (Checked.load4_eq_ok _ _) ?_
          exact ih hlevel _ _ _ ⟨⟨arena', rfl⟩, hm.instructionCount, hm.callLevel⟩
        · refine .give ⟨hm, fun f' hf => ?_⟩
          obtain rfl := Option.some.inj hf
          trivial
        · refine .give ⟨hm, fun f' hf => ?_⟩
          obtain rfl := Option.some.inj hf
          exact ⟨_, _, message, hyields⟩

/-- Every moment of a call is safe, at any call level. -/
theorem observeCall_safe (hp : p.Padded count) (fuel : Nat) {m : Machine}
    (hm : m.Runs p count level) (s : σ) (c : Invocation) :
    (stream.observeCall host fuel m s c).Meets (Moment.Safe host)
      fun y => y.1.Runs p count level :=
  Machine.observe_meets Checked.pushFrame_eq_ok (fun _ he => ⟨he.2, he.1⟩)
    (fun i x s hx => observe_safe host hp (Nat.succ_ne_zero level) fuel i x s hx) hm s c

end Engine

namespace Machine

variable {σ : Type}

/-- **Calls stay in range.** Take any image that can be loaded, any contents of the arena, any call
level, any host and any call. At every moment of the call, calls back included, all accesses are in
range, and no activation ends because an access was impossible or, unless the host may give up,
because the host gave up. -/
theorem call_safe {name : String} {image : ByteArray} {m : Module}
    (hload : Module.load name image = .ok m) {level : Nat} {vm : Machine}
    (hvm : vm.Runs m.program m.header.instructionCount level) (host : Host σ) (fuel : Nat) (s : σ)
    (c : Invocation) :
    (Engine.stream.observeCall host fuel vm s c).result = call host fuel vm s c ∧
      ∀ moment ∈ (Engine.stream.observeCall host fuel vm s c).moments, moment.Safe host := by
  refine ⟨Engine.result_observeCall host fuel vm s c, ?_⟩
  obtain ⟨I, -, -, hcount, hlinked⟩ := Module.linked_of_load hload
  have hp := hlinked.padded hcount
  exact (Engine.observeCall_safe host hp fuel hvm s c).moments

/-- A host that makes the sample return into the middle of its first instruction. -/
def misleading : Host Unit :=
  fun _ s => .ask (.poke 44 ⟨#[1, 0, 0, 0]⟩) fun _ => .done s (.value 3)

theorem call_safe_sample :
    ∃ m, Module.load "sample" Module.sampleImage = .ok m ∧
      (create m 0).Runs m.program m.header.instructionCount 0 ∧
      (Engine.stream.observeCall misleading 100 (create m 0) () ⟨7, [1, 2], none⟩).result
        = call misleading 100 (create m 0) () ⟨7, [1, 2], none⟩ ∧
      ∀ moment ∈
        (Engine.stream.observeCall misleading 100 (create m 0) () ⟨7, [1, 2], none⟩).moments,
        moment.Safe misleading := by
  obtain ⟨m, hm⟩ := Module.exists_load_sample
  have hvm := runs_create m 0
  exact ⟨m, hm, hvm, call_safe hm hvm misleading 100 () ⟨7, [1, 2], none⟩⟩

end Machine

end BytecodeHost
