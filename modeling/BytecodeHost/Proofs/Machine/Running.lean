import BytecodeHost.Proofs.Machine.Observation
import BytecodeHost.Proofs.Machine.Requests

/-!
# Machines in the course of a call

While a call is in progress a host can write the whole arena, and it can call back; it cannot
exchange or release the program, since releasing is refused at any call level but zero.
`Machine.Runs` is what therefore stays: the program, the instruction count and the call level. It
says nothing about the arena.

## Main results

* `Request.runs_perform` — no request of a host takes the program away
* `Machine.runs_close` — a call leaves the call level as it was
-/

namespace BytecodeHost

/-- A machine has a program loaded and is at a call level. What the arena holds is left open. -/
structure Machine.Runs (p : Program) (count : Int32) (level : Nat) (m : Machine) : Prop where
  /-- The program is loaded. -/
  loaded : ∃ a, m.loaded = some ⟨p, a⟩
  /-- The instruction count is that of the program. -/
  instructionCount : m.status.instructionCount = count
  /-- This many calls are in progress. -/
  callLevel : m.status.callLevel = level

namespace Machine

variable {p : Program} {count : Int32} {level : Nat} {m : Machine}

/-- A new machine runs its module. -/
theorem runs_create (m : Module) (limit : UInt64) :
    (create m limit).Runs m.program m.header.instructionCount 0 :=
  ⟨⟨m.arena, rfl⟩, rfl, rfl⟩

theorem Runs.withMeter (h : m.Runs p count level) (μ : Meter) :
    (m.withMeter μ).Runs p count level :=
  ⟨h.loaded, h.instructionCount, h.callLevel⟩

end Machine

theorem Request.Outcome.runs {q : Request} {p : Program} {count : Int32} {level : Nat}
    {m m' : Machine} (h : q.Outcome m m') (hlevel : level ≠ 0) (hm : m.Runs p count level) :
    m'.Runs p count level := by
  cases h with
  | same | refused | allotted => exact ⟨hm.loaded, hm.instructionCount, hm.callLevel⟩
  | poked offset bytes =>
    obtain ⟨a, ha⟩ := hm.loaded
    obtain ⟨l, status⟩ := m
    obtain rfl : l = some ⟨p, a⟩ := ha
    exact ⟨⟨a.write offset bytes, rfl⟩, hm.instructionCount, hm.callLevel⟩
  | freed hzero | restored hzero => exact absurd (hm.callLevel.symm.trans hzero) hlevel

/-- **No request takes the program away** while a call is in progress. -/
theorem Request.runs_perform {p : Program} {count : Int32} {level : Nat} (hlevel : level ≠ 0)
    (q : Request) (m : Machine) (h : m.Runs p count level) :
    (q.perform m).1.Runs p count level :=
  (q.outcome m).runs hlevel (h.withMeter _)

namespace Machine

variable {σ : Type} {p : Program} {count : Int32} {level : Nat}

/-- An activation runs the program of its machine. -/
theorem Runs.program_eq {x : Activation} (h : x.machine.Runs p count level) : x.program = p := by
  obtain ⟨a, ha⟩ := h.loaded
  exact congrArg Loaded.program (Option.some.inj ha)

/-- The activation of a call runs one level up. -/
theorem runs_activation {arena : Arena} {status : Status} (c : Invocation)
    (h : Runs p count level ⟨some ⟨p, arena⟩, status⟩) :
    (activation ⟨p, arena⟩ status c).machine.Runs p count (level + 1) :=
  ⟨⟨_, rfl⟩, h.instructionCount, congrArg (· + 1) h.callLevel⟩

/-- A call leaves the call level as it was. -/
theorem runs_close {before : Status} {e : Ended σ} (h : e.machine.Runs p count (level + 1)) :
    (close before e).1.Runs p count level := by
  have hlevel : e.machine.status.callLevel - 1 = level := by
    rw [h.callLevel, Nat.add_sub_cancel]
  rw [close]
  split
  · exact ⟨h.loaded, h.instructionCount, hlevel⟩
  · exact ⟨h.loaded, h.instructionCount, hlevel⟩

/-- A call keeps what its activation keeps. -/
theorem observe_meets {Q : Moment → Prop} {P : Ended σ → Prop}
    {run : Option Interruption → Activation → σ → Observed (Ended σ)}
    (hentered : ∀ a frame c, Q (.entered a frame c))
    (hended : ∀ e, P e → Q (.ended e.fault) ∧ e.machine.Runs p count (level + 1))
    (hrun : ∀ i x s, x.machine.Runs p count (level + 1) → (run i x s).Meets Q P)
    {m : Machine} (hm : m.Runs p count level) (s : σ) (c : Invocation) :
    (m.observe run s c).Meets Q fun y => y.1.Runs p count level := by
  obtain ⟨l, status⟩ := m
  obtain ⟨arena, rfl : l = some ⟨p, arena⟩⟩ := hm.loaded
  rw [observe]
  split
  · exact .give hm
  · refine .note (hentered _ _ _) ?_
    refine (hrun _ _ _ (runs_activation c hm)).andThen fun e he => ?_
    obtain ⟨hq, hruns⟩ := hended e he
    exact .note hq (.give (runs_close hruns))

end Machine

end BytecodeHost
