import BytecodeHost.Machine.Registry
import BytecodeHost.Proofs.Machine.Subroutine
import BytecodeHost.Proofs.Machine.Trap

/-!
# Code that asks the host

What code can rely on behind a trap depends on what the host answers and on what it has written to
the arena meanwhile. A `Block` speaks of all hosts at once, so a stretch of code with traps in it
needs a contract of its own, about one host and the states that it goes through.

A `Scene` is a place in the code together with the state of the host and with the state of the
machine that no instruction changes. The latter is part of it because a trap leaves the program
stack at the frame that it was raised from, and it stays there until the call ends.

## Main definitions

* `Scene`, `Passage` — places in the code with a host, and code that gets from one to another

## Main results

* `Block.passage`, `Passage.trans` — stretches of code compose, with or without traps
* `passage_trap` — a trap that is answered with a value
* `HostM.run_bind` — handlers are run request by request
* `Registry.host_of_find?` — the handler that answers a trap
* `Machine.Idle.exists_call_of_passage` — a call of code with traps
-/

namespace BytecodeHost

variable {σ : Type}

/-! ## Places with a host -/

/-- A place in the code, with the states of the machine and of its host there. -/
structure Scene (σ : Type) where
  /-- The state of the machine besides program and arena. -/
  status : Status
  /-- The state of the host. -/
  host : σ
  /-- The place in the code. -/
  spot : Spot

/-- Code that gets every activation with a host from one place to another one. -/
def Passage (host : Host σ) (p : Program) (γ δ : Scene σ) : Prop :=
  ∀ x, Activation.At p γ.status γ.spot x → ∃ y n, Activation.At p δ.status δ.spot y ∧
    ∀ fuel, Activation.run host (fuel + n) none x γ.host = Activation.run host fuel none y δ.host

variable {host : Host σ} {p : Program} {γ δ ε : Scene σ}

theorem Passage.refl : Passage host p γ γ :=
  fun x hx => ⟨x, 0, hx, fun _ => rfl⟩

theorem Passage.trans (h : Passage host p γ δ) (h' : Passage host p δ ε) : Passage host p γ ε := by
  intro x hx
  obtain ⟨y, n, hy, hn⟩ := h x hx
  obtain ⟨z, k, hz, hk⟩ := h' y hy
  exact ⟨z, k + n, hz, fun fuel => by rw [← Nat.add_assoc, hn, hk]⟩

/-- Code without traps is no concern of the host. -/
theorem Block.passage {status : Status} {α β : Spot} (h : Block p status α β) (s : σ) :
    Passage host p ⟨status, s, α⟩ ⟨status, s, β⟩ := by
  intro x hx
  obtain ⟨y, ⟨n, hn⟩, hy⟩ := h x hx
  exact ⟨y, n, hy, fun fuel => hn host fuel s⟩

/-! ## Traps -/

/-- The words that a trap hands over: its number and the words of the frame behind it. -/
theorem getD_loadWords (a : Arena) (frame : UInt32) {i : Nat} (h : i < trapWords) :
    (a.loadWords (frame + 4) trapWords #[]).getD i 0
      = a.load4 (frame + UInt32.ofNat (4 + 4 * i)) := by
  rw [Array.getD_eq_getD_getElem?, Arena.getElem?_loadWords _ _ h, Option.getD_some,
    UInt32.ofNat_add, ← UInt32.add_assoc]
  rfl

/-- A trap changes two words of its frame. -/
theorem agreesOutside_markTrap {a : Arena} {frame : UInt32}
    (hroom : frame.toNat + 8 ≤ a.mask.toNat + 1) (pc target : UInt32) :
    Arena.AgreesOutside frame.toNat (frame.toNat + 8) a (a.markTrap frame pc target) := by
  have hfirst : a.index frame = frame.toNat := Arena.index_of_le (by omega)
  have hsecond : (a.store4 frame pc).index (frame + 4) = frame.toNat + 4 :=
    Arena.index_add_of_le (n := 4) (show frame.toNat + 4 ≤ a.mask.toNat by omega)
  exact (Arena.AgreesOutside.store4 a pc (by omega) (by omega)).trans
    (.store4 _ (returnMarker - target) (by omega) (by omega))

section

variable {I : List Instruction} {status : Status}
variable (hp : p.Linked I) (hcount : status.instructionCount.toUInt32.toNat = I.length)
include hp hcount

/-- **A trap that is answered with a value** gets to the instruction behind it, with the value on
top of the operands, if the host leaves the return place alone. The program stack is at the
frame. -/
theorem passage_trap {a a' : Arena} {k : Nat} {frame v w : UInt32} {l : List UInt32} {s s' : σ}
    {r : Int64} (hi : I[k]? = some ⟨.call, w⟩) (htrap : v.toInt32 < 0)
    (hanswer : ∀ (fuel : Nat) (meter : Meter),
      (host ((a.markTrap frame (p.offset (k + 1)) v).loadWords (frame + 4) trapWords #[]) s).run
          (Machine.call host fuel)
          ⟨some ⟨p, a.markTrap frame (p.offset (k + 1)) v⟩,
            { status with meter, programStack := frame - 4 }⟩
        = some (⟨some ⟨p, a'⟩, { status with meter, programStack := frame - 4 }⟩, s', .value r))
    (hback : a'.load4 frame = p.offset (k + 1)) :
    Passage host p ⟨status, s, ⟨a, k, frame, v :: l⟩⟩
      ⟨{ status with programStack := frame - 4 }, s',
        ⟨a', k + 1, frame, r.toInt32.toUInt32 :: l⟩⟩ := by
  intro x hx
  obtain ⟨hk, hcall⟩ := List.getElem?_eq_some_iff.mp hi
  obtain ⟨y, j, hy, hj, haccount, hstep⟩ :=
    hx.exists_dispatch hp hcount hk fun h => by rw [hcall] at h; contradiction
  dsimp only at hj hstep
  obtain ⟨meter, hlimit, hstatus⟩ := hy.status
  have heffect : Reference.execute I status.instructionCount I[k] j frame x.registers.operands a
      = .trap ⟨j + 1, frame, x.registers.operands.drop 1⟩
          (a.markTrap frame (p.offset (k + 1)) v) := by
    rw [hcall, Reference.execute, Opcode.shape, hx.operands.first,
      hp.relocate_add_one (hj ▸ hk), hj]
    exact if_pos htrap
  rw [heffect] at hstep
  refine ⟨.resume frame (x.registers.operands.drop 1) y.executed r ⟨p, a'⟩
    { status with meter, programStack := frame - 4 }, 1,
    ⟨rfl, rfl, ⟨meter, hlimit, rfl⟩, hback, rfl, ?_⟩, fun fuel => ?_⟩
  · rw [Activation.resume, Operands.push_drop_one]
    exact hx.operands.setFirst _
  · rw [Activation.run_succ, Activation.advance, haccount]
    dsimp only
    rw [hstep]
    dsimp only [Effect.relocate, Registers.relocate]
    rw [hy.program, hstatus]
    exact congrArg (Option.bind · _) (hanswer fuel meter)

end

/-! ## Handlers -/

section

variable {α β : Type}
variable (callBack : Machine → σ → Invocation → Option (Machine × σ × CallResult))
variable (m : Machine) (s : σ)

/-- What goes on after a script is run on the machine that the script leaves behind. -/
theorem Script.run_andThen (x : Script σ α) (f : σ → α → Script σ β) :
    (x.andThen f).run callBack m
      = (x.run callBack m).bind fun (m, s, a) => (f s a).run callBack m := by
  induction x generalizing m with
  | done s a => rfl
  | ask q k ih => exact ih _ _
  | call s c k ih =>
    rw [andThen, run, run]
    cases callBack m s c with
    | none => rfl
    | some r => exact ih _ _ _

namespace HostM

@[simp] theorem run_pure (a : α) : ((pure a : HostM σ α) s).run callBack m = some (m, s, a) := rfl

@[simp] theorem run_bind (x : HostM σ α) (f : α → HostM σ β) :
    ((x >>= f) s).run callBack m
      = ((x s).run callBack m).bind fun (m, s, a) => (f a s).run callBack m :=
  Script.run_andThen callBack m (x s) _

@[simp] theorem run_ite (c : Prop) [Decidable c] (x y : HostM σ α) :
    ((if c then x else y) s).run callBack m
      = if c then (x s).run callBack m else (y s).run callBack m := by
  split <;> rfl

end HostM

namespace StandardTrap

@[simp] theorem run_readString (address : UInt32) :
    (readString address s).run callBack m
      = some ((m.cString address).1, s, (m.cString address).2) := rfl

@[simp] theorem run_checkRange (address length : UInt32) :
    (checkRange address length s).run callBack m
      = some ((m.validateRange address length).1, s, (m.validateRange address length).2) := rfl

@[simp] theorem run_writeRange (address : UInt32) (bytes : ByteArray) :
    (writeRange address bytes s).run callBack m = some (m.poke address.toNat bytes, s, ()) := rfl

theorem run_readRange {m : Machine} {l : Loaded} (hl : m.loaded = some l)
    (address length : UInt32) :
    (readRange address length s).run callBack m
      = some (m, s, l.arena.read address.toNat length.toNat) := by
  obtain ⟨_, status⟩ := m
  obtain rfl := hl
  rfl

/-- What an allocation is answered with. -/
def allocated : Except Failure UInt32 → TrapReply
  | .ok address => .value address.toInt32.toInt64
  | .error f => .refused f

theorem run_malloc (words : Array UInt32) :
    (malloc words s).run callBack m
      = some ((m.malloc (arg words 1).toInt32).1, s,
          allocated (m.malloc (arg words 1).toInt32).2) := by
  have hscript : malloc words s
      = .ask (.malloc (arg words 1).toInt32) fun r => .done s (allocated r) :=
    congrArg (Script.ask (.malloc (arg words 1).toInt32))
      (funext fun r : Except Failure UInt32 => by cases r <;> rfl)
  rw [hscript]
  rfl

end StandardTrap

end

namespace Registry

/-- A trap is answered by the handler with its number. -/
theorem host_of_find? {r : Registry σ} {words : Array UInt32} {number : Int32} {handler : Host σ}
    (hnumber : (words.getD 0 0).toInt32 = number) (h : r.find? number = some handler) :
    r.host words = handler words := by
  simp only [host, hnumber, h]

end Registry

/-! ## Calls -/

/-- **A call of code with traps that ends without a fault** returns the value that it ends with, and
leaves the machine idle with the arena that is left behind. -/
theorem Machine.Idle.exists_call_of_passage {m : Module} {vm : Machine} {a b : Arena}
    {c : Invocation} {s s' : σ} {status : Status} {spot : Spot} {w : UInt32} (h : vm.Idle m 0 b)
    (hwaits : c.interruption = none) (hargs : c.args.length ≤ 12) (hoffset : m.program.offset 0 = 0)
    (hpassage : Passage host m.program
      ⟨entered vm.status, s, ⟨b.pushFrame (vm.status.programStack - callFrameSize) c, 0,
        vm.status.programStack - callFrameSize, [Operands.sentinel]⟩⟩ ⟨status, s', spot⟩)
    (hends : spot.EndsWith m.program status a w none)
    (hcount : status.instructionCount = m.header.instructionCount) (hheap : status.heap = {}) :
    ∃ (n : Nat) (vm' : Machine),
      (∀ fuel, Machine.call host (fuel + n) vm s c = some (vm', s', ⟨w, none⟩)) ∧
        vm'.Idle m 0 a := by
  obtain ⟨y, n, hy, hn⟩ := hpassage _ (at_activation ⟨m.program, b⟩ c h.limit hoffset)
  obtain ⟨meter, k, hk⟩ := hends y hy
  have hcall : ∀ fuel, Machine.call host (fuel + (k + n)) vm s c
      = some (leave vm.status ⟨some ⟨m.program, a⟩, { status with meter }⟩, s', ⟨w, none⟩) := by
    intro fuel
    rw [call_eq_close h.loaded hwaits hargs, ← Nat.add_assoc, hn, hk host]
    rfl
  refine ⟨k + n, _, hcall, ?_⟩
  obtain ⟨a', -, hidle⟩ := h.call (hcall 0) hcount hheap
  obtain rfl : a = a' := (Loaded.mk.inj (Option.some.inj hidle.loaded)).2
  exact hidle

end BytecodeHost
