import BytecodeHost.Machine.Call

/-!
# Observed runs

A call answers with a result and says nothing about the way there. To state what holds at every
instruction of every call, nested calls included, the execution is written once more so that it
hands out the list of its `Moment`s: the frames it writes, the instructions it dispatches, the words
it reads around a trap, and how each activation ends. A run whose fuel gives out has moments but no
result, so statements about all moments for all fuel are statements about runs that never end, too.

What executes an instruction is a parameter, an `Engine`. `Engine.stream` is the machine's own, and
its observed runs have the results of `Activation.run` and `Machine.call`.

## Main definitions

* `Moment`, `Observed` — what can be seen of a run
* `Observed.Meets` — a condition on all moments and one on the result
* `Engine`, `Engine.observe`, `Engine.observeCall` — runs that can be observed

## Main results

* `Engine.result_observe`, `Engine.result_observeCall` — observing a run does not change its result
* `Script.observe_meets` — what requests and calls back keep, every script keeps
-/

namespace BytecodeHost

/-- Something that happens in the course of a call. -/
inductive Moment where
  /-- The frame of a call is written. -/
  | entered (a : Arena) (frame : UInt32) (c : Invocation)
  /-- An instruction is dispatched. -/
  | dispatched (p : Program) (count : Int32) (r : Registers) (a : Arena)
  /-- The words of a trap are read. -/
  | trapped (a : Arena) (frame : UInt32)
  /-- The return word of an answered trap is read. -/
  | resumed (a : Arena) (frame : UInt32)
  /-- An activation ends. -/
  | ended (fault : Option Fault)

/-- What is seen of a run, with its result unless the fuel gives out. -/
structure Observed (α : Type) where
  /-- What happens, in order. -/
  moments : List Moment
  /-- What comes out. -/
  result : Option α

namespace Observed

variable {α β : Type} {Q : Moment → Prop} {P : α → Prop}

/-- A result without anything to see. -/
def give (a : α) : Observed α :=
  ⟨[], some a⟩

/-- The fuel has given out. -/
def exhausted : Observed α :=
  ⟨[], none⟩

/-- A moment before a run. -/
def note (m : Moment) (o : Observed α) : Observed α :=
  ⟨m :: o.moments, o.result⟩

/-- A run after another, on its result. -/
def andThen (o : Observed α) (f : α → Observed β) : Observed β :=
  match o.result with
  | none => ⟨o.moments, none⟩
  | some a => ⟨o.moments ++ (f a).moments, (f a).result⟩

@[simp] theorem result_give (a : α) : (give a).result = some a := rfl

@[simp] theorem result_exhausted : (exhausted : Observed α).result = none := rfl

@[simp] theorem result_note (m : Moment) (o : Observed α) : (note m o).result = o.result := rfl

@[simp] theorem result_andThen (o : Observed α) (f : α → Observed β) :
    (o.andThen f).result = o.result.bind fun a => (f a).result := by
  rw [andThen]
  cases o.result <;> rfl

theorem moments_andThen (o : Observed α) (f : α → Observed β) :
    (o.andThen f).moments
      = o.moments ++ (o.result.map fun a => (f a).moments).getD [] := by
  rw [andThen]
  cases o.result <;> simp

/-! ### Conditions on runs -/

/-- All moments satisfy one condition and the result another. -/
structure Meets (Q : Moment → Prop) (P : α → Prop) (o : Observed α) : Prop where
  /-- The condition on moments. -/
  moments : ∀ m ∈ o.moments, Q m
  /-- The condition on the result. -/
  result : ∀ a, o.result = some a → P a

theorem Meets.give {a : α} (h : P a) : Meets Q P (give a) where
  moments := by simp [Observed.give]
  result b hb := by
    obtain rfl := Option.some.inj hb
    exact h

theorem Meets.exhausted : Meets Q P (exhausted : Observed α) where
  moments := by simp [Observed.exhausted]
  result := by simp

theorem Meets.note {m : Moment} {o : Observed α} (hm : Q m) (h : Meets Q P o) :
    Meets Q P (note m o) where
  moments := by simpa [Observed.note] using ⟨hm, h.moments⟩
  result := h.result

theorem Meets.andThen {o : Observed α} {f : α → Observed β} {P' : β → Prop} (h : Meets Q P o)
    (hf : ∀ a, P a → Meets Q P' (f a)) : Meets Q P' (o.andThen f) := by
  cases hr : o.result with
  | none =>
    refine ⟨?_, by simp [hr]⟩
    rw [moments_andThen, hr]
    simpa using h.moments
  | some a =>
    have ha := hf a (h.result a hr)
    refine ⟨?_, by simpa [hr] using ha.result⟩
    rw [moments_andThen, hr]
    intro m hm
    rcases List.mem_append.mp hm with hm | hm
    · exact h.moments m hm
    · exact ha.moments m hm

end Observed

/-! ## Scripts and calls -/

/-- Observes a script, given observed calls back. -/
def Script.observe {σ α : Type}
    (callBack : Machine → σ → Invocation → Observed (Machine × σ × CallResult)) :
    Script σ α → Machine → Observed (Machine × σ × α)
  | done s a, m => .give (m, s, a)
  | ask q k, m => (k (q.perform m).2).observe callBack (q.perform m).1
  | call s c k, m => (callBack m s c).andThen fun (m, s, r) => (k s r).observe callBack m

/-- A script can end with a value, given suitable replies. -/
inductive Script.Yields {σ α : Type} : Script σ α → α → Prop where
  | done {s : σ} {a : α} : Yields (.done s a) a
  | ask {q : Request} {k : q.Reply → Script σ α} {a : α} (r : q.Reply) (h : Yields (k r) a) :
    Yields (.ask q k) a
  | call {s : σ} {c : Invocation} {k : σ → CallResult → Script σ α} {a : α} (s' : σ)
    (r : CallResult) (h : Yields (k s' r) a) : Yields (.call s c k) a

namespace Script

variable {σ α : Type}

theorem result_observe
    (callBack : Machine → σ → Invocation → Observed (Machine × σ × CallResult))
    (script : Script σ α) (m : Machine) :
    (script.observe callBack m).result
      = script.run (fun m s c => (callBack m s c).result) m := by
  induction script generalizing m with
  | done s a => rfl
  | ask q k ih =>
    rw [observe, run]
    exact ih _ _
  | call s c k ih =>
    rw [observe, run, Observed.result_andThen]
    cases (callBack m s c).result with
    | none => rfl
    | some x => exact ih _ _ _

/-- **What requests and calls back keep, every script keeps**, and it ends with one of its own
values. -/
theorem observe_meets {Q : Moment → Prop} {P : Machine → Prop}
    {callBack : Machine → σ → Invocation → Observed (Machine × σ × CallResult)}
    (hask : ∀ (q : Request) (m : Machine), P m → P (q.perform m).1)
    (hcall : ∀ m s c, P m → (callBack m s c).Meets Q fun x => P x.1)
    (script : Script σ α) {m : Machine} (hm : P m) :
    (script.observe callBack m).Meets Q fun x => P x.1 ∧ script.Yields x.2.2 := by
  induction script generalizing m with
  | done s a => exact .give ⟨hm, .done⟩
  | ask q k ih =>
    have h := ih (q.perform m).2 (hask q m hm)
    exact ⟨h.moments, fun x hx => ⟨(h.result x hx).1, .ask _ (h.result x hx).2⟩⟩
  | call s c k ih =>
    refine (hcall m s c hm).andThen fun (m, s, r) hm => ?_
    have h := ih s r hm
    exact ⟨h.moments, fun x hx => ⟨(h.result x hx).1, .call s r (h.result x hx).2⟩⟩

end Script

/-- Some trap may make a host give up. -/
def Host.MayPanic {σ : Type} (host : Host σ) : Prop :=
  ∃ words s message, (host words s).Yields (.panicked message)

namespace Machine

/-- The activation that a call starts with. -/
def activation (l : Loaded) (status : Status) (c : Invocation) : Activation where
  program := l.program
  arena := l.arena.pushFrame (status.programStack - callFrameSize) c
  status := entered status
  registers := ⟨0, status.programStack - callFrameSize, .initial⟩
  executed := 0

/-- What a call makes of the end of its activation. -/
def close {σ : Type} (before : Status) (e : Ended σ) : Machine × σ × CallResult :=
  match e.fault with
  | none => (leave before e.machine, e.host, ⟨e.value, none⟩)
  | some f =>
    (leave before { e.machine with status := e.machine.status.fail f }, e.host,
      ⟨e.value, some f.toFailure⟩)

/-- Observes a call, given observed activations. -/
def observe {σ : Type} (run : Option Interruption → Activation → σ → Observed (Ended σ))
    (m : Machine) (s : σ) (c : Invocation) : Observed (Machine × σ × CallResult) :=
  match m with
  | ⟨none, status⟩ =>
    let f := Fault.unloaded "vm not loaded"
    .give (⟨none, status.fail f⟩, s, ⟨returnMarker, some f.toFailure⟩)
  | ⟨some l, status⟩ =>
    if maxCallArgs < c.args.length then
      .give (⟨some l, status⟩, s, ⟨returnMarker, some (tooManyArguments c.args.length)⟩)
    else
      .note (.entered l.arena (status.programStack - callFrameSize) c) <|
        (run c.interruption (activation l status c) s).andThen fun e =>
          .note (.ended e.fault) (.give (close status e))

theorem result_observe {σ : Type}
    (run : Option Interruption → Activation → σ → Observed (Ended σ)) (m : Machine) (s : σ)
    (c : Invocation) :
    (m.observe run s c).result = enter (fun i x s => (run i x s).result) m s c := by
  obtain ⟨_ | ⟨program, arena⟩, status⟩ := m
  · rfl
  · rw [observe, enter]
    split
    · rfl
    · rw [Observed.result_note, Observed.result_andThen]
      dsimp only [activation]
      cases (run _ _ _).result with
      | none => rfl
      | some e =>
        obtain ⟨m, s, value, _ | f⟩ := e <;> rfl

end Machine

/-! ## Engines -/

/-- What execution leaves to the form that programs are in. -/
structure Engine where
  /-- How many places a program has. -/
  size : Program → Nat
  /-- The effect of the instruction at the program counter. -/
  step : Program → Int32 → Registers → Arena → Effect
  /-- The place that a return word stands for, if it stands for one. -/
  back : UInt32 → Option UInt32

/-- The engine of the machine: places are places in the stream. -/
def Engine.stream : Engine where
  size p := p.code.size
  step := BytecodeHost.step
  back := some

namespace Activation

/-- The accounting before an instruction, once its place is known to exist. -/
def charge (x : Activation) (interruption : Option Interruption) : Activation × Option Fault :=
  match x.status.meter.charge 1 with
  | (meter, granted) =>
    let x := { x with status := { x.status with meter } }
    if granted then
      let x := { x with executed := x.executed + 1 }
      match interruption with
      | some i =>
        if x.executed % pollInterval = 0 ∧ i.after ≤ x.executed then
          (x, some (.canceled i.reason))
        else (x, none)
      | none => (x, none)
    else (x, some (.budget x.status.name meter.used))

/-- The accounting before an instruction, for any engine. -/
def accountBy (E : Engine) (x : Activation) (interruption : Option Interruption) :
    Activation × Option Fault :=
  if E.size x.program ≤ x.registers.pc.toNat then
    (x, some (.pcOutside x.registers.pc (E.size x.program)))
  else x.charge interruption

theorem accountBy_stream (x : Activation) (interruption : Option Interruption) :
    x.accountBy .stream interruption = x.account interruption := rfl

/-- An activation that goes on at a place after a trap. -/
def resumeAt (pc frame : UInt32) (operands : Operands) (executed : Nat) (v : Int64) (l : Loaded)
    (status : Status) : Activation where
  program := l.program
  arena := l.arena
  status := status
  registers := ⟨pc, frame, operands.push v.toInt32.toUInt32⟩
  executed := executed

/-- Charging changes meter and count only, and stops for want of budget or of a caller. -/
theorem charge_cases (x : Activation) (interruption : Option Interruption) :
    ∃ meter executed fault, x.charge interruption
        = ({ x with status := { x.status with meter }, executed }, fault) ∧
      (fault = none ∨ (∃ reason, fault = some (.canceled reason)) ∨
        ∃ name used, fault = some (.budget name used)) := by
  rw [charge]
  split
  rename_i meter granted _
  dsimp only
  split
  · cases interruption with
    | none => exact ⟨meter, x.executed + 1, none, rfl, .inl rfl⟩
    | some i =>
      dsimp only
      split
      · exact ⟨meter, x.executed + 1, _, rfl, .inr (.inl ⟨_, rfl⟩)⟩
      · exact ⟨meter, x.executed + 1, none, rfl, .inl rfl⟩
  · exact ⟨meter, x.executed, _, rfl, .inr (.inr ⟨_, _, rfl⟩)⟩

end Activation

namespace Engine

variable {σ : Type}

/-- Observes an activation. -/
def observe (E : Engine) (host : Host σ) :
    Nat → Option Interruption → Activation → σ → Observed (Ended σ)
  | 0, _, _, _ => .exhausted
  | fuel + 1, interruption, x, s =>
    match x.accountBy E interruption with
    | (x, some f) => .give (x.fail s f)
    | (⟨program, arena, status, registers, executed⟩, none) =>
      .note (.dispatched program status.instructionCount registers arena) <|
        match E.step program status.instructionCount registers arena with
        | .next registers arena =>
          observe E host fuel interruption ⟨program, arena, status, registers, executed⟩ s
        | .broke registers arena =>
          let status := { status with breakCount := status.breakCount + 1 }
          observe E host fuel interruption ⟨program, arena, status, registers, executed⟩ s
        | .finish operands arena =>
          .give (Activation.finish ⟨program, arena, status, registers, executed⟩ s operands)
        | .fault f arena =>
          .give (Activation.fail ⟨program, arena, status, registers, executed⟩ s f)
        | .stuck arena =>
          .give (Activation.fail ⟨program, arena, status, registers, executed⟩ s
            (.stuck status.name))
        | .trap ⟨_, frame, operands⟩ arena =>
          let words := arena.loadWords (frame + 4) trapWords #[]
          let status := { status with programStack := frame - 4 }
          .note (.trapped arena frame) <|
            ((host words s).observe (Machine.observe (observe E host fuel))
              ⟨some ⟨program, arena⟩, status⟩).andThen fun
            | (m, s, .refused f) =>
              .give ⟨m, s, returnMarker, some (.trap (trapNumber words) f)⟩
            | (m, s, .panicked message) =>
              .give ⟨m, s, returnMarker, some (.hostPanic m.status.name message)⟩
            | (⟨some l, status⟩, s, .value v) =>
              .note (.resumed l.arena frame) <|
                match E.back (l.arena.load4 frame) with
                | some pc =>
                  observe E host fuel interruption
                    (.resumeAt pc frame operands executed v l status) s
                | none => .give ⟨⟨some l, status⟩, s, returnMarker, some (.stuck status.name)⟩
            | (⟨none, status⟩, s, .value _) =>
              .give ⟨⟨none, status⟩, s, returnMarker, some (.stuck status.name)⟩

/-- Observes a call. -/
def observeCall (E : Engine) (host : Host σ) (fuel : Nat) (m : Machine) (s : σ)
    (c : Invocation) : Observed (Machine × σ × CallResult) :=
  m.observe (E.observe host fuel) s c

/-- **Observing an activation does not change its result.** -/
theorem result_observe (host : Host σ) (fuel : Nat) (interruption : Option Interruption)
    (x : Activation) (s : σ) :
    (stream.observe host fuel interruption x s).result
      = Activation.run host fuel interruption x s := by
  induction fuel generalizing interruption x s with
  | zero => rfl
  | succ fuel ih =>
    have hcall : (fun m s c => (Machine.observe (stream.observe host fuel) m s c).result)
        = Machine.enter (Activation.run host fuel) := by
      funext m s c
      rw [Machine.result_observe]
      congr 1
      funext i x s
      exact ih i x s
    rw [observe, Activation.run, Activation.accountBy_stream]
    obtain ⟨⟨program, arena, status, registers, executed⟩, _ | f⟩ := x.account interruption
    · dsimp only
      rw [Observed.result_note, show stream.step = BytecodeHost.step from rfl]
      cases BytecodeHost.step program status.instructionCount registers arena with
      | next registers arena => exact ih _ _ _
      | broke registers arena => exact ih _ _ _
      | finish operands arena => rfl
      | fault f arena => rfl
      | stuck arena => rfl
      | trap r arena =>
        obtain ⟨_, frame, operands⟩ := r
        dsimp only
        rw [Observed.result_note, Observed.result_andThen, Script.result_observe, hcall]
        cases (host (arena.loadWords (frame + 4) trapWords #[]) s).run
          (Machine.enter (Activation.run host fuel)) _ with
        | none => rfl
        | some y =>
          obtain ⟨⟨_ | l, status⟩, s, v | f | message⟩ := y
          · rfl
          · rfl
          · rfl
          · exact ih _ _ _
          · rfl
          · rfl
    · rfl

/-- **Observing a call does not change its result.** -/
theorem result_observeCall (host : Host σ) (fuel : Nat) (m : Machine) (s : σ) (c : Invocation) :
    (stream.observeCall host fuel m s c).result = Machine.call host fuel m s c := by
  rw [observeCall, Machine.result_observe, Machine.call]
  congr 1
  funext i x s
  exact result_observe host fuel i x s

end Engine

end BytecodeHost
