import BytecodeHost.Proofs.Arena
import BytecodeHost.Proofs.Machine.Reference

/-!
# The course of a call

A call is a recursive function over fuel: the activation calls the host, the host calls back, and
the nested call is the same function again. To state what holds at every point in between, the
recursion is taken apart. A `Point` is one point in the course of a call: what is being done, and
the calls below it that wait for their hosts. A step is one instruction, one request of a host, one
call back or one return.

Nothing bounds the number of steps, so the course of a call that never returns can be spoken of like
any other. A course ends with a result exactly if fuel suffices for it.

## Main definitions

* `Activation.advance`, `Pending.resume`, `Machine.accept` — what an instruction, the answer to a
  trap and the start of a call can do, each said once
* `Point`, `Point.step`, `Point.steps` — the course of a call

## Main results

* `Activation.run_succ`, `Machine.enter_eq` — executions in terms of these
* `Machine.call_mono` — more fuel never changes a result
* `Point.call_iff_steps` — a call has a result exactly if its course ends with it
-/

namespace BytecodeHost

/-! ## Single transitions -/

/-- A trap that a host is answering, with what is needed to go on afterwards. -/
structure Pending where
  /-- When the caller of the activation stops waiting. -/
  interruption : Option Interruption
  /-- The trap number and its arguments. -/
  words : Array UInt32
  /-- The frame that the trap was raised from. -/
  frame : UInt32
  /-- The operands that the answer is pushed on. -/
  operands : Operands
  /-- How many instructions the activation was charged. -/
  executed : Nat

/-- What becomes of an activation at an instruction. -/
inductive Advance (σ : Type) where
  /-- It goes on. -/
  | goesOn (x : Activation)
  /-- It ends. -/
  | ends (e : Ended σ)
  /-- It waits for the host. -/
  | traps (trap : Pending) (m : Machine)

variable {σ α : Type}

/-- One instruction of an activation. -/
def Activation.advance (interruption : Option Interruption) (x : Activation) (s : σ) : Advance σ :=
  match x.account interruption with
  | (x, some f) => .ends (x.fail s f)
  | (x, none) =>
    match step x.program x.status.instructionCount x.registers x.arena with
    | .next registers arena => .goesOn { x with registers, arena }
    | .broke registers arena =>
      let status := { x.status with breakCount := x.status.breakCount + 1 }
      .goesOn { x with registers, arena, status }
    | .finish operands arena => .ends (finish { x with arena } s operands)
    | .fault f arena => .ends (fail { x with arena } s f)
    | .stuck arena => .ends (fail { x with arena } s (.stuck x.status.name))
    | .trap ⟨_, frame, operands⟩ arena =>
      let words := arena.loadWords (frame + 4) trapWords #[]
      .traps ⟨interruption, words, frame, operands, x.executed⟩
        ⟨some ⟨x.program, arena⟩, { x.status with programStack := frame - 4 }⟩

/-- What becomes of an activation when its trap is answered. -/
def Pending.resume (trap : Pending) (m : Machine) (s : σ) :
    TrapReply → Except (Ended σ) Activation
  | .refused f => .error ⟨m, s, returnMarker, some (.trap (trapNumber trap.words) f)⟩
  | .panicked message => .error ⟨m, s, returnMarker, some (.hostPanic m.status.name message)⟩
  | .value v =>
    match m.loaded with
    | some l => .ok (.resume trap.frame trap.operands trap.executed v l m.status)
    | none => .error ⟨m, s, returnMarker, some (.stuck m.status.name)⟩

/-- The activation of a call, or the answer to a call that is refused. -/
def Machine.accept (m : Machine) (c : Invocation) : Except (Machine × CallResult) Activation :=
  match m.loaded with
  | none =>
    let f := Fault.unloaded "vm not loaded"
    .error (⟨none, m.status.fail f⟩, ⟨returnMarker, some f.toFailure⟩)
  | some l =>
    if maxCallArgs < c.args.length then
      .error (m, ⟨returnMarker, some (tooManyArguments c.args.length)⟩)
    else .ok (activation l m.status c)

/-! ## What transitions leave behind -/

namespace Arena

@[simp] theorem mask_store1 (a : Arena) (address : UInt32) (x : UInt8) :
    (a.store1 address x).mask = a.mask := rfl

@[simp] theorem mask_store2 (a : Arena) (address : UInt32) (x : UInt16) :
    (a.store2 address x).mask = a.mask := rfl

@[simp] theorem mask_store4 (a : Arena) (address : UInt32) (x : UInt32) :
    (a.store4 address x).mask = a.mask := rfl

@[simp] theorem mask_moveBytes (a : Arena) (dst src length : UInt32) :
    (a.moveBytes dst src length).mask = a.mask :=
  mask_write a _ _

@[simp] theorem mask_storeWords (a : Arena) (address : UInt32) (ws : List UInt32) :
    (a.storeWords address ws).mask = a.mask := by
  induction ws generalizing a address with
  | nil => rfl
  | cons w ws ih => exact ih (a.store4 address w) (address + 4)

@[simp] theorem mask_pushFrame (a : Arena) (frame : UInt32) (c : Invocation) :
    (a.pushFrame frame c).mask = a.mask := by
  rw [pushFrame, mask_store4, mask_store4, mask_storeWords]

end Arena

/-- No instruction resizes the arena. -/
theorem mask_step (p : Program) (count : Int32) (r : Registers) (a : Arena) :
    (step p count r a).arena.mask = a.mask := by
  have immediate : ∀ (pc : UInt32) (k : UInt32 → Arena → Effect),
      (∀ w, (k w a).arena.mask = a.mask) → (withImmediate p pc a k).arena.mask = a.mask := by
    intro pc k hk
    rw [withImmediate]
    split
    · exact hk _
    · rfl
  have instruction : ∀ (index frame : UInt32) (operands : Operands) (a' : Arena),
      (toInstruction p index frame operands a').arena.mask = a'.mask := by
    intro index frame operands a'
    rw [toInstruction]
    split <;> rfl
  rw [step]
  split
  · rfl
  · split
    · rfl
    · rename_i op _
      rw [execute]
      cases op.shape with
      | invalid | ignore | breakpoint | load1 | load2 | load4 | push | pop | unary | binary => rfl
      | store1 | store2 | store4 => rfl
      | constant | frameAddress | argument | enter => exact immediate _ _ fun w => rfl
      | blockCopy =>
        refine immediate _ _ fun w => ?_
        split
        · rw [Effect.arena, Arena.mask_moveBytes]
        · rfl
      | call =>
        dsimp only
        split
        · rfl
        · split
          · rfl
          · exact instruction _ _ _ _
      | leave =>
        refine immediate _ _ fun w => ?_
        dsimp only
        split
        · rfl
        · split <;> rfl
      | jump =>
        dsimp only
        split
        · rfl
        · exact instruction _ _ _ _
      | branch =>
        dsimp only
        split
        · exact immediate _ _ fun w => rfl
        · rfl
      | divide =>
        dsimp only
        split <;> rfl

namespace Activation

/-- The meter after the accounting of an instruction. -/
def charged (x : Activation) : Meter :=
  if x.program.code.size ≤ x.registers.pc.toNat then x.status.meter
  else (x.status.meter.charge 1).1

theorem account_cases (x : Activation) (interruption : Option Interruption) :
    ∃ executed fault, x.account interruption
      = ({ x with status := { x.status with meter := x.charged }, executed }, fault) := by
  rw [account, charged]
  split
  · exact ⟨x.executed, _, rfl⟩
  · dsimp only
    split
    · cases interruption with
      | none => exact ⟨x.executed + 1, _, rfl⟩
      | some i =>
        dsimp only
        split <;> exact ⟨x.executed + 1, _, rfl⟩
    · exact ⟨x.executed, _, rfl⟩

/-- **What an instruction leaves behind**: the program, an arena of the same size, and all of the
machine's state but its meter, its breakpoint count and, at a trap, its program stack. -/
theorem advance_cases (interruption : Option Interruption) (x : Activation) (s : σ) :
    ∃ (a : Arena) (status : Status), a.mask = x.arena.mask ∧
      (∃ breakCount programStack,
        status = { x.status with meter := x.charged, breakCount, programStack }) ∧
      ((∃ y, x.advance interruption s = .goesOn y ∧ y.machine = ⟨some ⟨x.program, a⟩, status⟩) ∨
        (∃ value fault, x.advance interruption s
          = .ends ⟨⟨some ⟨x.program, a⟩, status⟩, s, value, fault⟩) ∨
        ∃ trap, x.advance interruption s = .traps trap ⟨some ⟨x.program, a⟩, status⟩ ∧
          status.programStack = trap.frame - 4) := by
  obtain ⟨executed, fault, haccount⟩ := x.account_cases interruption
  rw [advance, haccount]
  cases fault with
  | some f =>
    exact ⟨x.arena, _, rfl, ⟨x.status.breakCount, x.status.programStack, rfl⟩,
      .inr (.inl ⟨_, _, rfl⟩)⟩
  | none =>
    dsimp only
    have hmask := mask_step x.program x.status.instructionCount x.registers x.arena
    cases hstep : step x.program x.status.instructionCount x.registers x.arena with
    | next r a =>
      rw [hstep] at hmask
      exact ⟨a, _, hmask, ⟨x.status.breakCount, x.status.programStack, rfl⟩, .inl ⟨_, rfl, rfl⟩⟩
    | broke r a =>
      rw [hstep] at hmask
      exact ⟨a, _, hmask, ⟨x.status.breakCount + 1, x.status.programStack, rfl⟩,
        .inl ⟨_, rfl, rfl⟩⟩
    | finish operands a =>
      rw [hstep] at hmask
      refine ⟨a, _, hmask, ⟨x.status.breakCount, x.status.programStack, rfl⟩, .inr (.inl ?_)⟩
      dsimp only
      rw [finish]
      split <;> exact ⟨_, _, rfl⟩
    | fault f a =>
      rw [hstep] at hmask
      exact ⟨a, _, hmask, ⟨x.status.breakCount, x.status.programStack, rfl⟩,
        .inr (.inl ⟨_, _, rfl⟩)⟩
    | stuck a =>
      rw [hstep] at hmask
      exact ⟨a, _, hmask, ⟨x.status.breakCount, x.status.programStack, rfl⟩,
        .inr (.inl ⟨_, _, rfl⟩)⟩
    | trap r a =>
      rw [hstep] at hmask
      exact ⟨a, _, hmask, ⟨x.status.breakCount, r.frame - 4, rfl⟩, .inr (.inr ⟨_, rfl, rfl⟩)⟩

end Activation

/-- An answered trap leaves the machine as the host left it. -/
theorem Pending.resume_cases (trap : Pending) (m : Machine) (s : σ) (reply : TrapReply) :
    (∃ x, trap.resume m s reply = .ok x ∧ x.machine = m) ∨
      ∃ value fault, trap.resume m s reply = .error ⟨m, s, value, some fault⟩ := by
  obtain ⟨_ | l, status⟩ := m
  · cases reply <;> exact .inr ⟨_, _, rfl⟩
  · cases reply with
    | value v => exact .inl ⟨_, rfl, rfl⟩
    | refused | panicked => exact .inr ⟨_, _, rfl⟩

/-- A call that is refused changes nothing but the record of failures. -/
theorem Machine.accept_cases (m : Machine) (c : Invocation) :
    (∃ l a, m.loaded = some l ∧ a.mask = l.arena.mask ∧ ∃ x, m.accept c = .ok x ∧
      x.machine = ⟨some ⟨l.program, a⟩, entered m.status⟩) ∨
    ∃ r lastError events,
      m.accept c = .error (⟨m.loaded, { m.status with lastError, events }⟩, r) := by
  obtain ⟨_ | l, status⟩ := m
  · exact .inr ⟨_, _, _, rfl⟩
  · rw [accept]
    dsimp only
    split
    · exact .inr ⟨_, status.lastError, status.events, rfl⟩
    · exact .inl ⟨l, _, rfl, Arena.mask_pushFrame _ _ _, _, rfl, rfl⟩

/-! ## Executions as transitions -/

theorem Machine.enter_eq (run : Runner σ) (m : Machine) (s : σ) (c : Invocation) :
    enter run m s c =
      match m.accept c with
      | .error (m, r) => some (m, s, r)
      | .ok x => (run c.interruption x s).map (close m.status) := by
  obtain ⟨_ | ⟨program, arena⟩, status⟩ := m
  · rfl
  · rw [enter, accept]
    dsimp only
    split
    · rfl
    · dsimp only [activation]
      cases run _ _ _ with
      | none => rfl
      | some e =>
        obtain ⟨m, s, value, _ | f⟩ := e <;> rfl

theorem Activation.run_succ (host : Host σ) (fuel : Nat) (interruption : Option Interruption)
    (x : Activation) (s : σ) :
    run host (fuel + 1) interruption x s =
      match x.advance interruption s with
      | .goesOn x => run host fuel interruption x s
      | .ends e => some e
      | .traps trap m =>
        ((host trap.words s).run (Machine.enter (run host fuel)) m).bind fun (m, s, reply) =>
          match trap.resume m s reply with
          | .ok x => run host fuel trap.interruption x s
          | .error e => some e := by
  rw [run, advance]
  obtain ⟨⟨program, arena, status, registers, executed⟩, _ | f⟩ := x.account interruption
  · dsimp only
    cases step program status.instructionCount registers arena with
    | next | broke | finish | fault | stuck => rfl
    | trap r arena =>
      obtain ⟨_, frame, operands⟩ := r
      dsimp only
      cases (host (arena.loadWords (frame + 4) trapWords #[]) s).run _ _ with
      | none => rfl
      | some y =>
        obtain ⟨⟨_ | l, status⟩, s, v | f | message⟩ := y <;> rfl
  · rfl

/-! ## More fuel -/

theorem Script.run_mono
    {callBack callBack' : Machine → σ → Invocation → Option (Machine × σ × CallResult)}
    (h : ∀ {m s c y}, callBack m s c = some y → callBack' m s c = some y) (script : Script σ α)
    {m : Machine} {y : Machine × σ × α} (hy : script.run callBack m = some y) :
    script.run callBack' m = some y := by
  induction script generalizing m with
  | done s a => exact hy
  | ask q k ih => exact ih _ hy
  | call s c k ih =>
    rw [run] at hy ⊢
    split at hy
    · rename_i m s r hcall
      rw [h hcall]
      exact ih _ _ hy
    · contradiction

theorem Machine.enter_mono {run run' : Runner σ}
    (h : ∀ {i x s e}, run i x s = some e → run' i x s = some e) {m : Machine} {s : σ}
    {c : Invocation} {y : Machine × σ × CallResult} (hy : enter run m s c = some y) :
    enter run' m s c = some y := by
  rw [enter_eq] at hy ⊢
  split at hy
  · exact hy
  · obtain ⟨e, he, rfl⟩ := Option.map_eq_some_iff.mp hy
    rw [h he]
    rfl

theorem Activation.run_mono (host : Host σ) {fuel fuel' : Nat} (hle : fuel ≤ fuel')
    {i : Option Interruption} {x : Activation} {s : σ} {e : Ended σ}
    (he : run host fuel i x s = some e) : run host fuel' i x s = some e := by
  induction fuel generalizing fuel' i x s e with
  | zero => contradiction
  | succ fuel ih =>
    obtain ⟨fuel', rfl⟩ : ∃ k, fuel' = k + 1 := ⟨fuel' - 1, by omega⟩
    have hle : fuel ≤ fuel' := by omega
    rw [run_succ] at he ⊢
    cases hx : x.advance i s with
    | goesOn x =>
      rw [hx] at he
      exact ih hle he
    | ends e =>
      rw [hx] at he
      exact he
    | traps trap m =>
      rw [hx] at he
      obtain ⟨⟨m, s, reply⟩, hrun, he⟩ := Option.bind_eq_some_iff.mp he
      refine Option.bind_eq_some_iff.mpr ⟨(m, s, reply), ?_, ?_⟩
      · exact Script.run_mono (Machine.enter_mono (ih hle)) _ hrun
      · dsimp only at he ⊢
        split at he
        · exact ih hle he
        · exact he

/-- **More fuel never changes a result.** -/
theorem Machine.call_mono (host : Host σ) {fuel fuel' : Nat} (hle : fuel ≤ fuel') {m : Machine}
    {s : σ} {c : Invocation} {y : Machine × σ × CallResult} (hy : call host fuel m s c = some y) :
    call host fuel' m s c = some y :=
  enter_mono (Activation.run_mono host hle) hy

/-! ## Courses -/

/-- A call that waits for a call back of its host. -/
structure Caller (σ : Type) where
  /-- The machine's state before the call. -/
  before : Status
  /-- The trap that is being answered. -/
  trap : Pending
  /-- How the host goes on. -/
  next : σ → CallResult → Script σ TrapReply

/-- What is being done at a point in the course of a call. -/
inductive Focus (σ : Type) where
  /-- A call executes instructions. -/
  | executing (before : Status) (interruption : Option Interruption) (x : Activation) (s : σ)
  /-- The host of a call answers a trap. -/
  | handling (before : Status) (trap : Pending) (script : Script σ TrapReply) (m : Machine)
  /-- A call returns. -/
  | returning (m : Machine) (s : σ) (r : CallResult)

/-- A point in the course of a call. -/
structure Point (σ : Type) where
  /-- What the innermost call does. -/
  focus : Focus σ
  /-- The calls below it, innermost first. -/
  callers : List (Caller σ)

namespace Focus

/-- A call whose activation has ended returns. -/
def ended (before : Status) (e : Ended σ) : Focus σ :=
  .returning (Machine.close before e).1 (Machine.close before e).2.1 (Machine.close before e).2.2

/-- A call starts, or is refused. -/
def start (m : Machine) (s : σ) (c : Invocation) : Focus σ :=
  match m.accept c with
  | .ok x => executing m.status c.interruption x s
  | .error (m, r) => returning m s r

/-- A call executes an instruction. -/
def advance (host : Host σ) (before : Status) (interruption : Option Interruption)
    (x : Activation) (s : σ) : Focus σ :=
  match x.advance interruption s with
  | .goesOn x => executing before interruption x s
  | .ends e => ended before e
  | .traps trap m => handling before trap (host trap.words s) m

/-- A trap is answered. -/
def answer (before : Status) (trap : Pending) (m : Machine) (s : σ) (reply : TrapReply) :
    Focus σ :=
  match trap.resume m s reply with
  | .ok x => executing before trap.interruption x s
  | .error e => ended before e

end Focus

namespace Point

/-- The start of a call. -/
def start (m : Machine) (s : σ) (c : Invocation) : Point σ :=
  ⟨.start m s c, []⟩

/-- One step of a course. Nothing happens any more once the outermost call has returned. -/
def step (host : Host σ) : Point σ → Point σ
  | ⟨.executing before interruption x s, callers⟩ =>
    ⟨.advance host before interruption x s, callers⟩
  | ⟨.handling before trap (.done s reply) m, callers⟩ => ⟨.answer before trap m s reply, callers⟩
  | ⟨.handling before trap (.ask q k) m, callers⟩ =>
    ⟨.handling before trap (k (q.perform m).2) (q.perform m).1, callers⟩
  | ⟨.handling before trap (.call s c k) m, callers⟩ =>
    ⟨.start m s c, ⟨before, trap, k⟩ :: callers⟩
  | ⟨.returning m s r, ⟨before, trap, k⟩ :: callers⟩ =>
    ⟨.handling before trap (k s r) m, callers⟩
  | ⟨.returning m s r, []⟩ => ⟨.returning m s r, []⟩

/-- Some steps of a course. -/
def steps (host : Host σ) : Nat → Point σ → Point σ
  | 0, γ => γ
  | n + 1, γ => steps host n (γ.step host)

theorem steps_add (host : Host σ) (n k : Nat) (γ : Point σ) :
    steps host (n + k) γ = steps host k (steps host n γ) := by
  induction n generalizing γ with
  | zero => rw [Nat.zero_add]; rfl
  | succ n ih =>
    rw [Nat.succ_add]
    exact ih (γ.step host)

theorem steps_succ' (host : Host σ) (n : Nat) (γ : Point σ) :
    steps host (n + 1) γ = (steps host n γ).step host :=
  steps_add host n 1 γ

/-- A course stays where it ends. -/
theorem steps_returning (host : Host σ) (n : Nat) (m : Machine) (s : σ) (r : CallResult) :
    steps host n ⟨.returning m s r, []⟩ = ⟨.returning m s r, []⟩ := by
  induction n with
  | zero => rfl
  | succ n ih => exact ih

/-- How many of the steps that follow start at a point of some kind. -/
def tally (host : Host σ) (p : Point σ → Bool) : Nat → Point σ → Nat
  | 0, _ => 0
  | n + 1, γ => (p γ).toNat + tally host p n (γ.step host)

theorem tally_add (host : Host σ) (p : Point σ → Bool) (n k : Nat) (γ : Point σ) :
    tally host p (n + k) γ = tally host p n γ + tally host p k (steps host n γ) := by
  induction n generalizing γ with
  | zero => rw [Nat.zero_add, tally, Nat.zero_add]; rfl
  | succ n ih => rw [Nat.succ_add, tally, ih, tally, steps, Nat.add_assoc]

theorem tally_succ' (host : Host σ) (p : Point σ → Bool) (n : Nat) (γ : Point σ) :
    tally host p (n + 1) γ = tally host p n γ + (p (steps host n γ)).toNat :=
  tally_add host p n 1 γ

/-- A course gets from one point to another. -/
def Reaches (host : Host σ) (γ δ : Point σ) : Prop :=
  ∃ n, steps host n γ = δ

namespace Reaches

variable {host : Host σ} {γ δ ε : Point σ}

theorem refl : Reaches host γ γ :=
  ⟨0, rfl⟩

theorem head (h : Reaches host (γ.step host) δ) : Reaches host γ δ := by
  obtain ⟨n, hn⟩ := h
  exact ⟨n + 1, hn⟩

theorem trans (h : Reaches host γ δ) (h' : Reaches host δ ε) : Reaches host γ ε := by
  obtain ⟨n, rfl⟩ := h
  obtain ⟨k, rfl⟩ := h'
  exact ⟨n + k, steps_add host n k γ⟩

end Reaches

/-! ### From results to courses -/

section

variable {host : Host σ} {callBack : Machine → σ → Invocation → Option (Machine × σ × CallResult)}

/-- A handler whose calls back return gets to its end. -/
theorem reaches_done
    (hcall : ∀ {m s c y callers}, callBack m s c = some y →
      Reaches host ⟨.start m s c, callers⟩ ⟨.returning y.1 y.2.1 y.2.2, callers⟩)
    (before : Status) (trap : Pending) (callers : List (Caller σ)) (script : Script σ TrapReply)
    {m : Machine} {y : Machine × σ × TrapReply} (hy : script.run callBack m = some y) :
    Reaches host ⟨.handling before trap script m, callers⟩
      ⟨.handling before trap (.done y.2.1 y.2.2) y.1, callers⟩ := by
  induction script generalizing m with
  | done s a =>
    obtain rfl := Option.some.inj hy
    exact .refl
  | ask q k ih => exact .head (ih _ hy)
  | call s c k ih =>
    rw [Script.run] at hy
    split at hy
    · rename_i m s r hr
      exact .head ((hcall hr).trans (.head (ih s r hy)))
    · contradiction

/-- A call whose activation gets to its end returns. -/
theorem reaches_returning {run : Runner σ}
    (hrun : ∀ {before i x s e callers}, run i x s = some e →
      Reaches host ⟨.executing before i x s, callers⟩ ⟨.ended before e, callers⟩)
    {m : Machine} {s : σ} {c : Invocation} {y : Machine × σ × CallResult}
    {callers : List (Caller σ)} (hy : Machine.enter run m s c = some y) :
    Reaches host ⟨.start m s c, callers⟩ ⟨.returning y.1 y.2.1 y.2.2, callers⟩ := by
  rw [Machine.enter_eq] at hy
  rw [Focus.start]
  cases haccept : m.accept c with
  | error refusal =>
    rw [haccept] at hy
    obtain rfl := Option.some.inj hy
    exact .refl
  | ok x =>
    rw [haccept] at hy
    obtain ⟨e, he, rfl⟩ := Option.map_eq_some_iff.mp hy
    exact hrun he

/-- An activation that has a result gets there. -/
theorem reaches_ended (fuel : Nat) {before : Status} {i : Option Interruption} {x : Activation}
    {s : σ} {e : Ended σ} {callers : List (Caller σ)}
    (he : Activation.run host fuel i x s = some e) :
    Reaches host ⟨.executing before i x s, callers⟩ ⟨.ended before e, callers⟩ := by
  induction fuel generalizing before i x s e callers with
  | zero => contradiction
  | succ fuel ih =>
    refine .head ?_
    rw [Activation.run_succ] at he
    rw [step, Focus.advance]
    cases hx : x.advance i s with
    | goesOn x =>
      rw [hx] at he
      exact ih he
    | ends e =>
      rw [hx] at he
      obtain rfl := Option.some.inj he
      exact .refl
    | traps trap m =>
      rw [hx] at he
      obtain ⟨⟨m, s, reply⟩, hscript, he⟩ := Option.bind_eq_some_iff.mp he
      refine (reaches_done (reaches_returning ih) before trap callers _ hscript).trans (.head ?_)
      rw [step, Focus.answer]
      dsimp only at he
      split at he
      · rename_i x hx'
        rw [hx']
        exact ih he
      · rename_i e' he'
        rw [he']
        obtain rfl := Option.some.inj he
        exact .refl

end

/-! ### From courses to results -/

end Point

/-- What a call comes to from a point on, if fuel suffices. -/
def Focus.result (host : Host σ) (fuel : Nat) : Focus σ → Option (Machine × σ × CallResult)
  | executing before i x s => (Activation.run host fuel i x s).map (Machine.close before)
  | handling before trap script m =>
    (script.run (Machine.enter (Activation.run host fuel)) m).bind fun (m, s, reply) =>
      match trap.resume m s reply with
      | .ok x => (Activation.run host fuel trap.interruption x s).map (Machine.close before)
      | .error e => some (Machine.close before e)
  | returning m s r => some (m, s, r)

namespace Point

/-- What the outermost call comes to once the innermost one has. -/
def unwind (host : Host σ) (fuel : Nat) :
    List (Caller σ) → Option (Machine × σ × CallResult) → Option (Machine × σ × CallResult)
  | [], y => y
  | ⟨before, trap, k⟩ :: callers, y =>
    unwind host fuel callers <|
      y.bind fun (m, s, r) => (Focus.handling before trap (k s r) m).result host fuel

/-- What the outermost call comes to from a point on, if fuel suffices. -/
def result (host : Host σ) (fuel : Nat) (γ : Point σ) : Option (Machine × σ × CallResult) :=
  unwind host fuel γ.callers (γ.focus.result host fuel)

end Point

namespace Focus

variable {host : Host σ} {fuel fuel' : Nat} {y : Machine × σ × CallResult}

theorem result_start (host : Host σ) (fuel : Nat) (m : Machine) (s : σ) (c : Invocation) :
    (start m s c).result host fuel = Machine.call host fuel m s c := by
  rw [start, Machine.call, Machine.enter_eq]
  cases m.accept c <;> rfl

theorem result_mono (hle : fuel ≤ fuel') {φ : Focus σ} (h : φ.result host fuel = some y) :
    φ.result host fuel' = some y := by
  have run : ∀ {before i x s y},
      (Activation.run host fuel i x s).map (Machine.close before) = some y →
        (Activation.run host fuel' i x s).map (Machine.close before) = some y := by
    intro before i x s y h
    obtain ⟨e, he, rfl⟩ := Option.map_eq_some_iff.mp h
    rw [Activation.run_mono host hle he]
    rfl
  cases φ with
  | executing before i x s => exact run h
  | handling before trap script m =>
    obtain ⟨⟨m, s, reply⟩, hscript, h⟩ := Option.bind_eq_some_iff.mp h
    refine Option.bind_eq_some_iff.mpr ⟨(m, s, reply), ?_, ?_⟩
    · exact Script.run_mono (Machine.call_mono host hle) script hscript
    · dsimp only at h ⊢
      split at h
      · exact run h
      · exact h
  | returning m s r => exact h

theorem result_advance {before : Status} {i : Option Interruption} {x : Activation} {s : σ}
    (h : (advance host before i x s).result host fuel = some y) :
    (executing before i x s).result host (fuel + 1) = some y := by
  rw [result, Activation.run_succ]
  rw [advance] at h
  cases hx : x.advance i s with
  | goesOn x =>
    rw [hx] at h
    exact h
  | ends e =>
    rw [hx] at h
    exact h
  | traps trap m =>
    rw [hx] at h
    obtain ⟨⟨m, s, reply⟩, hscript, h⟩ := Option.bind_eq_some_iff.mp h
    dsimp only at h ⊢
    rw [hscript, Option.bind_some]
    cases hresume : trap.resume m s reply with
    | ok x => simpa [hresume] using h
    | error e => simpa [hresume] using h

theorem result_answer {before : Status} {trap : Pending} {m : Machine} {s : σ} {reply : TrapReply}
    (h : (answer before trap m s reply).result host fuel = some y) :
    (handling before trap (.done s reply) m).result host fuel = some y := by
  rw [answer] at h
  rw [result, Script.run, Option.bind_some]
  dsimp only
  cases hresume : trap.resume m s reply with
  | ok x =>
    rw [hresume] at h
    exact h
  | error e =>
    rw [hresume] at h
    exact h

theorem result_call (before : Status) (trap : Pending) (m : Machine) (s : σ) (c : Invocation)
    (k : σ → CallResult → Script σ TrapReply) :
    (handling before trap (.call s c k) m).result host fuel
      = (Machine.call host fuel m s c).bind fun (m, s, r) =>
          (handling before trap (k s r) m).result host fuel := by
  rw [result, Script.run, Machine.call]
  cases Machine.enter (Activation.run host fuel) m s c <;> rfl

end Focus

namespace Point

variable {host : Host σ} {fuel fuel' : Nat} {y : Machine × σ × CallResult}

theorem unwind_mono (hle : fuel ≤ fuel') {callers : List (Caller σ)}
    {z z' : Option (Machine × σ × CallResult)} (hz : ∀ {w}, z = some w → z' = some w)
    (h : unwind host fuel callers z = some y) : unwind host fuel' callers z' = some y := by
  induction callers generalizing z z' with
  | nil => exact hz h
  | cons caller callers ih =>
    refine ih (fun {w} hw => ?_) h
    obtain ⟨v, hv, hw⟩ := Option.bind_eq_some_iff.mp hw
    exact Option.bind_eq_some_iff.mpr ⟨v, hz hv, Focus.result_mono hle hw⟩

/-- A step costs one unit of fuel at most. -/
theorem result_step {γ : Point σ} (h : (γ.step host).result host fuel = some y) :
    γ.result host (fuel + 1) = some y := by
  have hle : fuel ≤ fuel + 1 := by omega
  obtain ⟨φ, callers⟩ := γ
  cases φ with
  | executing before i x s => exact unwind_mono hle Focus.result_advance h
  | handling before trap script m =>
    cases script with
    | done s reply =>
      exact unwind_mono hle (fun hw => Focus.result_mono hle (Focus.result_answer hw)) h
    | ask q k => exact unwind_mono hle (Focus.result_mono hle) h
    | call s c k =>
      refine unwind_mono hle (fun {w} hw => Focus.result_mono hle ?_) h
      rw [Focus.result_call, ← Focus.result_start]
      exact hw
  | returning m s r =>
    cases callers with
    | nil => exact h
    | cons caller callers => exact unwind_mono hle (Focus.result_mono hle) h

theorem result_steps {n : Nat} {γ : Point σ} (h : (steps host n γ).result host fuel = some y) :
    γ.result host (fuel + n) = some y := by
  induction n generalizing γ with
  | zero => exact h
  | succ n ih => exact result_step (ih h)

/-- **A call has a result exactly if its course ends with it.** -/
theorem call_iff_steps (host : Host σ) (m : Machine) (s : σ) (c : Invocation)
    (y : Machine × σ × CallResult) :
    (∃ fuel, Machine.call host fuel m s c = some y) ↔
      ∃ n, steps host n (start m s c) = ⟨.returning y.1 y.2.1 y.2.2, []⟩ := by
  constructor
  · rintro ⟨fuel, h⟩
    exact reaches_returning (reaches_ended fuel) h
  · rintro ⟨n, hn⟩
    have h : (steps host n (start m s c)).result host 0 = some y := by
      rw [hn]
      rfl
    refine ⟨0 + n, ?_⟩
    rw [← Focus.result_start]
    exact result_steps h

end Point

end BytecodeHost
