import BytecodeHost.Proofs.Machine.Operands
import BytecodeHost.Proofs.Machine.Simulation
import BytecodeHost.Proofs.Machine.Threshold

/-!
# Straight-line code

What a stretch of code does, for activations without an instruction limit that nobody waits for. A
`Spot` is a place in the code together with what a stretch of code may rely on there: the arena, the
index of the next instruction, the frame, and the operands down to slot zero. It says nothing about
slots above the top, the meter, or how many instructions were executed.

A block gets every activation that is at one spot to another one, and blocks compose. Where an
activation ends is said in the same way, so that a block in front of an end makes an end again.

## Main definitions

* `Activation.GoesOn`, `Activation.EndsWith` — instructions of an activation, one after the other
* `Spot`, `Activation.At` — places in the code
* `Program.Stands` — a stretch of code stands at an index
* `Block`, `Spot.EndsWith` — what is done from one place on

## Main results

* `Block.trans`, `Block.endsWith` — stretches of code compose
* `block_of_next`, `block_of_execute`, `endsWith_of_fault`, `endsWith_of_leave` — single
  instructions
* `block_constant`, `block_enter`, `block_unary`, `block_binary`, `block_divide`,
  `endsWith_of_divide` — instructions that work on operands
* `Machine.exists_close_of_endsWith`, `Machine.exists_call_of_endsWith` — a call of code that ends
-/

namespace BytecodeHost

/-! ## Instructions one after the other -/

namespace Activation

/-- After some instructions an activation goes on as another one. -/
def GoesOn (x y : Activation) : Prop :=
  ∃ n, ∀ {σ : Type} (host : Host σ) (fuel : Nat) (s : σ),
    run host (fuel + n) none x s = run host fuel none y s

/-- After some instructions an activation ends. -/
def EndsWith (x : Activation) (m : Machine) (value : UInt32) (fault : Option Fault) : Prop :=
  ∃ n, ∀ {σ : Type} (host : Host σ) (fuel : Nat) (s : σ),
    run host (fuel + n) none x s = some ⟨m, s, value, fault⟩

variable {x y z : Activation}

theorem GoesOn.refl (x : Activation) : x.GoesOn x :=
  ⟨0, fun _ _ _ => rfl⟩

theorem GoesOn.trans (h : x.GoesOn y) (h' : y.GoesOn z) : x.GoesOn z := by
  obtain ⟨n, hn⟩ := h
  obtain ⟨k, hk⟩ := h'
  exact ⟨k + n, fun host fuel s => by rw [← Nat.add_assoc, hn, hk]⟩

theorem GoesOn.endsWith {m : Machine} {value : UInt32} {fault : Option Fault} (h : x.GoesOn y)
    (h' : y.EndsWith m value fault) : x.EndsWith m value fault := by
  obtain ⟨n, hn⟩ := h
  obtain ⟨k, hk⟩ := h'
  exact ⟨k + n, fun host fuel s => by rw [← Nat.add_assoc, hn, hk]⟩

end Activation

/-! ## Places in the code -/

/-- A stretch of code stands at an index of a program. -/
def Program.Stands (I : List Instruction) (k : Nat) (code : List Instruction) : Prop :=
  code <+: I.drop k

namespace Program.Stands

variable {I code rest : List Instruction} {k : Nat}

theorem all (I : List Instruction) : Stands I 0 I :=
  List.prefix_rfl

theorem left (h : Stands I k (code ++ rest)) : Stands I k code :=
  (List.prefix_append code rest).trans h

theorem right (h : Stands I k (code ++ rest)) : Stands I (k + code.length) rest := by
  obtain ⟨back, hback⟩ := h
  rw [List.append_assoc] at hback
  refine ⟨back, ?_⟩
  rw [← List.drop_drop, ← hback, List.drop_left]

theorem head {i : Instruction} (h : Stands I k (i :: rest)) : I[k]? = some i := by
  obtain ⟨back, hback⟩ := h
  rw [← List.head?_drop, ← hback]
  rfl

theorem tail {i : Instruction} (h : Stands I k (i :: rest)) : Stands I (k + 1) rest := by
  rw [← List.singleton_append] at h
  exact h.right

end Program.Stands

/-- A place in the code, and what code may rely on there. -/
structure Spot where
  /-- The data. -/
  arena : Arena
  /-- The index of the next instruction. -/
  index : Nat
  /-- The frame. -/
  frame : UInt32
  /-- The operands from the top down to slot zero. -/
  operands : List UInt32

/-- An activation without an instruction limit is at a place in the code of a program. -/
structure Activation.At (p : Program) (status : Status) (γ : Spot) (x : Activation) : Prop where
  /-- The program is the one that is executed. -/
  program : x.program = p
  /-- The arena is as it is said to be. -/
  arena : x.arena = γ.arena
  /-- So is all other state, but for a meter that does not limit anything. -/
  status : ∃ meter : Meter, meter.limit = 0 ∧ x.status = { status with meter }
  /-- The program counter is at the place of the index. -/
  pc : x.registers.pc = p.offset γ.index
  /-- The frame is as it is said to be. -/
  frame : x.registers.frame = γ.frame
  /-- So are the operands. -/
  operands : x.registers.operands.Holds γ.operands

/-- Code that gets every activation from one place to another one. -/
def Block (p : Program) (status : Status) (γ δ : Spot) : Prop :=
  ∀ x, Activation.At p status γ x → ∃ y, x.GoesOn y ∧ Activation.At p status δ y

/-- Code that ends every activation at a place, leaving an arena behind. -/
def Spot.EndsWith (p : Program) (status : Status) (γ : Spot) (a : Arena) (value : UInt32)
    (fault : Option Fault) : Prop :=
  ∀ x, Activation.At p status γ x → ∃ meter : Meter,
    x.EndsWith ⟨some ⟨p, a⟩, { status with meter }⟩ value fault

variable {p : Program} {I : List Instruction} {status : Status} {γ δ ε : Spot}

theorem Block.refl : Block p status γ γ :=
  fun x hx => ⟨x, .refl x, hx⟩

theorem Block.trans (h : Block p status γ δ) (h' : Block p status δ ε) : Block p status γ ε := by
  intro x hx
  obtain ⟨y, hxy, hy⟩ := h x hx
  obtain ⟨z, hyz, hz⟩ := h' y hy
  exact ⟨z, hxy.trans hyz, hz⟩

theorem Block.endsWith {a : Arena} {value : UInt32} {fault : Option Fault}
    (h : Block p status γ δ) (h' : δ.EndsWith p status a value fault) :
    γ.EndsWith p status a value fault := by
  intro x hx
  obtain ⟨y, hxy, hy⟩ := h x hx
  obtain ⟨meter, hends⟩ := h' y hy
  exact ⟨meter, hxy.endsWith hends⟩

/-! ## Single instructions -/

section

variable (hp : p.Linked I) (hcount : status.instructionCount.toUInt32.toNat = I.length)
include hp hcount

/-- Without a limit and without a caller that waits, the next instruction is granted and does what
the reference interpreter does. -/
theorem Activation.At.exists_dispatch {x : Activation} (h : x.At p status γ)
    (hk : γ.index < I.length) (hreturn : Reference.Returns I I[γ.index] γ.frame γ.arena) :
    ∃ (y : Activation) (k : UInt32), y.At p status γ ∧ k.toNat = γ.index ∧
      x.account none = (y, none) ∧
      step y.program y.status.instructionCount y.registers y.arena
        = (Reference.execute I status.instructionCount I[γ.index] k γ.frame x.registers.operands
            γ.arena).relocate (Program.relocate I) := by
  obtain ⟨arena, index, frame, operands⟩ := γ
  obtain ⟨meter, hlimit, hstatus⟩ := h.status
  obtain ⟨k, rfl⟩ := hp.exists_index (Nat.le_of_lt hk)
  have hpc : x.registers.pc.toNat < x.program.code.size := by
    rw [h.pc, h.program, hp.offset_toNat (Nat.le_of_lt hk), hp.toNat_relocate (Nat.le_of_lt hk),
      hp.size_code]
    exact Nat.lt_succ_of_lt (Program.place_lt_place hk (Nat.le_refl _))
  have hgranted : (x.status.meter.charge 1).2 = true := by
    rw [hstatus]
    exact Meter.granted_of_limit_eq_zero hlimit
  have hregisters : x.registers = ⟨p.offset k.toNat, frame, x.registers.operands⟩ := by
    have hplace : x.registers.pc = p.offset k.toNat := h.pc
    have hframe : x.registers.frame = frame := h.frame
    rw [← hplace, ← hframe]
  refine ⟨{ x.withMeter (x.status.meter.charge 1).1 with executed := x.executed + 1 }, k,
    ⟨h.program, h.arena, ⟨(x.status.meter.charge 1).1, ?_, ?_⟩, h.pc, h.frame, h.operands⟩, rfl,
    Activation.account_of_granted none hpc hgranted, ?_⟩
  · rw [Meter.limit_charge, hstatus]
    exact hlimit
  · dsimp only [Activation.withMeter, Status.withMeter]
    rw [hstatus]
  · dsimp only [Activation.withMeter, Status.withMeter]
    rw [h.program, h.arena, hregisters, hstatus]
    exact hp.step_offset hcount hk x.registers.operands hreturn

/-- An instruction that goes on anywhere, said by what the reference interpreter does. -/
theorem block_of_next {i : Instruction} {a a' : Arena} {j k : Nat} {frame frame' : UInt32}
    {l l' : List UInt32} (hi : I[k]? = some i) (hj : j ≤ I.length)
    (hreturn : Reference.Returns I i frame a)
    (hexecute : ∀ (w : UInt32) (s : Operands), w.toNat = k → s.Holds l →
      ∃ (t : UInt32) (s' : Operands), t.toNat = j ∧ s'.Holds l' ∧
        Reference.execute I status.instructionCount i w frame s a = .next ⟨t, frame', s'⟩ a') :
    Block p status ⟨a, k, frame, l⟩ ⟨a', j, frame', l'⟩ := by
  intro x hx
  obtain ⟨hk, rfl⟩ := List.getElem?_eq_some_iff.mp hi
  obtain ⟨y, k, hy, rfl, haccount, hstep⟩ := hx.exists_dispatch hp hcount hk hreturn
  obtain ⟨t, s', rfl, hs', heffect⟩ := hexecute k _ rfl hx.operands
  refine ⟨{ y with registers := ⟨Program.relocate I t, frame', s'⟩, arena := a' },
    ⟨1, fun host fuel s => ?_⟩, ⟨hy.program, rfl, hy.status, (hp.offset_toNat hj).symm, rfl, hs'⟩⟩
  rw [Activation.run_succ, Activation.advance, haccount]
  dsimp only at hstep ⊢
  rw [hstep, heffect]
  rfl

/-- An instruction that goes on to the next one, said by what the reference interpreter does. -/
theorem block_of_execute {i : Instruction} {a a' : Arena} {k : Nat} {frame frame' : UInt32}
    {l l' : List UInt32} (hi : I[k]? = some i) (hleave : i.op ≠ .leave)
    (hexecute : ∀ (k : UInt32) (s : Operands), s.Holds l → ∃ s', s'.Holds l' ∧
      Reference.execute I status.instructionCount i k frame s a = .next ⟨k + 1, frame', s'⟩ a') :
    Block p status ⟨a, k, frame, l⟩ ⟨a', k + 1, frame', l'⟩ := by
  have hk := (List.getElem?_eq_some_iff.mp hi).1
  refine block_of_next hp hcount hi hk (fun h => absurd h hleave) fun w s hw hs => ?_
  obtain ⟨s', hs', heffect⟩ := hexecute w s hs
  exact ⟨w + 1, s', by rw [hp.toNat_succ (hw ▸ hk), hw], hs', heffect⟩

/-- An instruction that ends an activation, said by what the reference interpreter does. -/
theorem endsWith_of_fault {i : Instruction} {a a' : Arena} {k : Nat} {frame : UInt32}
    {l : List UInt32} {f : Fault} (hi : I[k]? = some i) (hleave : i.op ≠ .leave)
    (hexecute : ∀ (j : UInt32) (s : Operands), j.toNat = k → s.Holds l →
      Reference.execute I status.instructionCount i j frame s a = .fault f a') :
    Spot.EndsWith p status ⟨a, k, frame, l⟩ a' returnMarker (some f) := by
  intro x hx
  obtain ⟨hk, rfl⟩ := List.getElem?_eq_some_iff.mp hi
  obtain ⟨y, k, hy, rfl, haccount, hstep⟩ :=
    hx.exists_dispatch hp hcount hk fun h => absurd h hleave
  obtain ⟨meter, -, hstatus⟩ := hy.status
  refine ⟨meter, 1, fun host fuel s => ?_⟩
  rw [Activation.run_succ, Activation.advance, haccount]
  dsimp only at hstep ⊢
  rw [hstep, hexecute k _ rfl hx.operands]
  dsimp only [Effect.relocate, Activation.fail, Activation.machine]
  rw [hy.program, hstatus]

/-- A return to the outermost frame ends an activation with its result, if it is balanced. -/
theorem endsWith_of_leave {a : Arena} {k : Nat} {frame w v : UInt32}
    (hi : I[k]? = some ⟨.leave, w⟩) (hback : a.load4 (frame + w) = returnMarker) :
    Spot.EndsWith p status ⟨a, k, frame, [v, Operands.sentinel]⟩ a v none := by
  intro x hx
  obtain ⟨hk, hleave⟩ := List.getElem?_eq_some_iff.mp hi
  obtain ⟨y, k, hy, rfl, haccount, hstep⟩ := hx.exists_dispatch hp hcount hk fun _ => .inl <| by
    dsimp only
    rw [hleave]
    exact hback
  obtain ⟨meter, -, hstatus⟩ := hy.status
  have heffect : Reference.execute I status.instructionCount I[k.toNat] k frame
      x.registers.operands a = .finish x.registers.operands a := by
    rw [hleave, Reference.execute]
    exact if_pos hback
  refine ⟨meter, 1, fun host fuel s => ?_⟩
  rw [Activation.run_succ, Activation.advance, haccount]
  dsimp only at hstep ⊢
  rw [hstep, heffect]
  dsimp only [Effect.relocate]
  rw [Activation.finish, if_pos hx.operands.balanced, hx.operands.first]
  dsimp only [Activation.machine]
  rw [hy.program, hstatus]

/-! ### Instructions that work on operands -/

variable {a : Arena} {k : Nat} {frame w u v : UInt32} {l : List UInt32}

theorem block_constant (hi : I[k]? = some ⟨.constant, w⟩) (hroom : l.length ≤ 255) :
    Block p status ⟨a, k, frame, l⟩ ⟨a, k + 1, frame, w :: l⟩ :=
  block_of_execute hp hcount hi (show Opcode.constant ≠ .leave by decide) fun _ s hs =>
    ⟨s.push w, hs.push hroom w, rfl⟩

theorem block_enter (hi : I[k]? = some ⟨.enter, w⟩) :
    Block p status ⟨a, k, frame, l⟩ ⟨a, k + 1, frame - w, l⟩ :=
  block_of_execute hp hcount hi (show Opcode.enter ≠ .leave by decide) fun _ s hs => ⟨s, hs, rfl⟩

theorem block_unary {op : Opcode} (hi : I[k]? = some ⟨op, w⟩) (hshape : op.shape = .unary) :
    Block p status ⟨a, k, frame, v :: l⟩ ⟨a, k + 1, frame, op.unary v :: l⟩ := by
  refine block_of_execute hp hcount hi ?_ fun k s hs =>
    ⟨s.setFirst (op.unary v), hs.setFirst _, ?_⟩
  · rintro rfl
    contradiction
  · rw [Reference.execute, hshape, hs.first]

theorem block_binary {op : Opcode} (hi : I[k]? = some ⟨op, w⟩) (hshape : op.shape = .binary) :
    Block p status ⟨a, k, frame, v :: u :: l⟩ ⟨a, k + 1, frame, op.binary u v :: l⟩ := by
  refine block_of_execute hp hcount hi ?_ fun k s hs =>
    ⟨(s.drop 1).setFirst (op.binary u v), hs.drop.setFirst _, ?_⟩
  · rintro rfl
    contradiction
  · rw [Reference.execute, hshape, hs.first, hs.second]

theorem block_divide {op : Opcode} (hi : I[k]? = some ⟨op, w⟩) (hshape : op.shape = .divide)
    (hv : v ≠ 0) :
    Block p status ⟨a, k, frame, v :: u :: l⟩ ⟨a, k + 1, frame, op.divide u v :: l⟩ := by
  refine block_of_execute hp hcount hi ?_ fun k s hs =>
    ⟨(s.drop 1).setFirst (op.divide u v), hs.drop.setFirst _, ?_⟩
  · rintro rfl
    contradiction
  · rw [Reference.execute, hshape, hs.first, hs.second]
    exact if_neg hv

theorem endsWith_of_divide {op : Opcode} (hi : I[k]? = some ⟨op, w⟩) (hshape : op.shape = .divide) :
    Spot.EndsWith p status ⟨a, k, frame, 0 :: l⟩ a returnMarker
      (some (.divisionByZero op (p.offset k))) := by
  refine endsWith_of_fault hp hcount hi ?_ fun j s hj hs => ?_
  · rintro rfl
    contradiction
  · subst hj
    have hk : j.toNat < I.length := (List.getElem?_eq_some_iff.mp hi).1
    rw [Reference.execute, hshape, hs.first, hp.offset_toNat (Nat.le_of_lt hk)]
    exact if_pos rfl

end

/-! ## Calls -/

namespace Machine

/-- The activation of a call without a limit is at the first instruction. -/
theorem at_activation (l : Loaded) {status : Status} (c : Invocation)
    (hlimit : status.meter.limit = 0) (hoffset : l.program.offset 0 = 0) :
    (activation l status c).At l.program (entered status)
      ⟨l.arena.pushFrame (status.programStack - callFrameSize) c, 0,
        status.programStack - callFrameSize, [Operands.sentinel]⟩ where
  program := rfl
  arena := rfl
  status := by
    refine ⟨(entered status).meter, ?_, rfl⟩
    rw [entered]
    dsimp only
    split <;> exact hlimit
  pc := hoffset.symm
  frame := rfl
  operands := Operands.holds_initial

/-- A call that is accepted is closed where its activation ends. -/
theorem call_eq_close {m : Machine} {b : Arena} {c : Invocation} (hloaded : m.loaded = some ⟨p, b⟩)
    (hwaits : c.interruption = none) (hargs : c.args.length ≤ maxCallArgs) {σ : Type}
    (host : Host σ) (fuel : Nat) (s : σ) :
    call host fuel m s c
      = (Activation.run host fuel none (activation ⟨p, b⟩ m.status c) s).map (close m.status) := by
  have haccept : m.accept c = .ok (activation ⟨p, b⟩ m.status c) := by
    rw [accept, hloaded]
    exact if_neg (Nat.not_lt.mpr hargs)
  rw [call, enter_eq, haccept, hwaits]

/-- A call of code that ends is closed where the code ends. -/
theorem exists_close_of_endsWith {m : Machine} {a b : Arena} {c : Invocation} {w : UInt32}
    {fault : Option Fault} (hloaded : m.loaded = some ⟨p, b⟩) (hlimit : m.status.meter.limit = 0)
    (hwaits : c.interruption = none) (hargs : c.args.length ≤ maxCallArgs)
    (hoffset : p.offset 0 = 0)
    (hends : Spot.EndsWith p (entered m.status)
      ⟨b.pushFrame (m.status.programStack - callFrameSize) c, 0,
        m.status.programStack - callFrameSize, [Operands.sentinel]⟩ a w fault) :
    ∃ (n : Nat) (meter : Meter), ∀ {σ : Type} (host : Host σ) (fuel : Nat) (s : σ),
      call host (fuel + n) m s c
        = some (close m.status ⟨⟨some ⟨p, a⟩, { entered m.status with meter }⟩, s, w, fault⟩) := by
  obtain ⟨meter, n, hn⟩ := hends _ (at_activation ⟨p, b⟩ c hlimit hoffset)
  refine ⟨n, meter, fun host fuel s => ?_⟩
  rw [call_eq_close hloaded hwaits hargs, hn, Option.map_some]

/-- **A call of code that ends** returns what the code ends with, and a fault is reported. -/
theorem exists_call_of_endsWith {m : Machine} {a b : Arena} {c : Invocation} {w : UInt32}
    {fault : Option Fault} (hloaded : m.loaded = some ⟨p, b⟩) (hlimit : m.status.meter.limit = 0)
    (hwaits : c.interruption = none) (hargs : c.args.length ≤ maxCallArgs)
    (hoffset : p.offset 0 = 0)
    (hends : Spot.EndsWith p (entered m.status)
      ⟨b.pushFrame (m.status.programStack - callFrameSize) c, 0,
        m.status.programStack - callFrameSize, [Operands.sentinel]⟩ a w fault) :
    ∃ (n : Nat) (m' : Machine),
      (∀ {σ : Type} (host : Host σ) (fuel : Nat) (s : σ),
        call host (fuel + n) m s c = some (m', s, ⟨w, fault.map Fault.toFailure⟩)) ∧
      m'.status.events = fault.elim m.status.events fun f =>
        m.status.events.push ⟨f.kind, f.detail, true⟩ := by
  obtain ⟨n, meter, hcall⟩ :=
    exists_close_of_endsWith hloaded hlimit hwaits hargs hoffset hends
  cases fault with
  | none =>
    exact ⟨n, leave m.status ⟨some ⟨p, a⟩, { entered m.status with meter }⟩, hcall, rfl⟩
  | some f =>
    exact ⟨n, leave m.status ⟨some ⟨p, a⟩, { entered m.status with meter }.fail f⟩, hcall, rfl⟩

end Machine

end BytecodeHost
