import BytecodeHost.Proofs.Image.Format
import BytecodeHost.Proofs.Machine.Course
import BytecodeHost.Proofs.Machine.Requests

/-!
# What a call puts back

A call changes the call level, the running flag and the program stack of its machine, and its host
can do so again by calling back, at any depth. However the call ends, a return puts all three back;
program, table and the size of the arena are never touched, because a host that tries is refused
while a call is in progress.

The invariant that carries this is about the whole stack of calls. Each waiting call says what the
machine has to look like when the call above it returns (`Point.Awaited`), and the innermost one is
one level above the state that it will put back.

## Main definitions

* `Machine.Fabric` — what a machine keeps for good
* `Machine.Restored` — what a machine has back after a call
* `Point.Kept` — the invariant of a course

## Main results

* `Request.served_perform` — what a host can change by itself
* `Point.kept_step`, `Point.kept_steps` — the invariant holds in the whole course of a call
* `Machine.call_restores` — calls restore the machine, whatever happens
-/

namespace BytecodeHost

variable {σ : Type}

/-! ## Requests of a host -/

/-- What a machine keeps for good: its program, the size of its arena and the bottom of its
stack. -/
structure Fabric where
  /-- The program, if it is loaded. -/
  program : Option Program
  /-- The mask of the arena, if it is loaded. -/
  mask : Option UInt32
  /-- The lowest address reserved for the program stack. -/
  stackBottom : UInt32

namespace Machine

/-- The fabric of a machine. -/
def fabric (m : Machine) : Fabric where
  program := m.loaded.map (·.program)
  mask := m.loaded.map (·.arena.mask)
  stackBottom := m.status.stackBottom

theorem fabric_eq_of_mask {p : Program} {a b : Arena} {status status' : Status}
    (hmask : a.mask = b.mask) (hbottom : status.stackBottom = status'.stackBottom) :
    fabric ⟨some ⟨p, a⟩, status⟩ = fabric ⟨some ⟨p, b⟩, status'⟩ := by
  simp [fabric, hmask, hbottom]

/-- What a machine with this fabric has loaded. -/
theorem exists_loaded_of_fabric {m m' : Machine} (h : m'.fabric = m.fabric) {l : Loaded}
    (hl : m.loaded = some l) :
    ∃ a, m'.loaded = some ⟨l.program, a⟩ ∧ a.mask = l.arena.mask := by
  have hprogram : m'.loaded.map (·.program) = m.loaded.map (·.program) :=
    congrArg Fabric.program h
  have hmask : m'.loaded.map (·.arena.mask) = m.loaded.map (·.arena.mask) :=
    congrArg Fabric.mask h
  rw [hl] at hprogram hmask
  obtain ⟨⟨program, a⟩, hl', rfl⟩ := Option.map_eq_some_iff.mp hprogram
  rw [hl'] at hmask
  exact ⟨a, hl', Option.some.inj hmask⟩

/-- A machine after a request: it has its fabric, and of its state only the heap and the record of
failures are different. -/
structure Served (m m' : Machine) : Prop where
  /-- The fabric is the same. -/
  fabric : m'.fabric = m.fabric
  /-- So is the state, heap and failures apart. -/
  status : ∃ heap lastError events, m'.status = { m.status with heap, lastError, events }

end Machine

theorem Request.Outcome.served {q : Request} {m m' : Machine} (h : q.Outcome m m')
    (hlevel : m.status.callLevel ≠ 0) : m.Served m' := by
  cases h with
  | same | refused | allotted => exact ⟨rfl, _, _, _, rfl⟩
  | poked offset bytes =>
    obtain ⟨_ | l, status⟩ := m
    · exact ⟨rfl, _, _, _, rfl⟩
    · exact ⟨Machine.fabric_eq_of_mask (Arena.mask_write _ _ _) rfl, _, _, _, rfl⟩
  | freed hzero | restored hzero => exact absurd hzero hlevel

/-- **What a host can change by itself** while a call is in progress: bytes of the arena, the heap,
the record of failures and, if it asks for that, the meter. -/
theorem Request.served_perform {m : Machine} (h : m.status.callLevel ≠ 0) (q : Request) :
    (m.withMeter (q.nextMeter m.status.meter)).Served (q.perform m).1 :=
  (q.outcome m).served h

/-! ## The invariant of a course -/

/-- The machine at a point in the course of a call. -/
def Focus.machine : Focus σ → Machine
  | executing _ _ x _ => x.machine
  | handling _ _ _ m => m
  | returning m _ _ => m

namespace Point

/-- The machine at a point in the course of a call. -/
def machine (γ : Point σ) : Machine :=
  γ.focus.machine

/-- How many calls are in progress. -/
def activations : Point σ → Nat
  | ⟨.returning .., callers⟩ => callers.length
  | ⟨_, callers⟩ => callers.length + 1

/-- The state in which a call that was made on `m₀`, below the given callers, has to return: the one
in which the innermost caller left it, or that of `m₀` if there is none. -/
def Awaited (m₀ : Machine) : List (Caller σ) → Status → Prop
  | [], status =>
    status.callLevel = m₀.status.callLevel ∧ status.running = m₀.status.running ∧
      status.programStack = m₀.status.programStack
  | caller :: callers, status =>
    (status.callLevel = caller.before.callLevel + 1 ∧ status.running = true ∧
      status.programStack = caller.trap.frame - 4) ∧ Awaited m₀ callers caller.before

/-- The invariant of the course of a call on `m₀`: the machine has its fabric, and it is one level
above the state that the innermost call will put back. -/
inductive Kept (m₀ : Machine) : Point σ → Prop where
  | executing {before : Status} {i : Option Interruption} {x : Activation} {s : σ}
    {callers : List (Caller σ)} (hfabric : x.machine.fabric = m₀.fabric)
    (hlevel : x.status.callLevel = before.callLevel + 1) (hrunning : x.status.running = true)
    (hawaited : Awaited m₀ callers before) : Kept m₀ ⟨.executing before i x s, callers⟩
  | handling {before : Status} {trap : Pending} {script : Script σ TrapReply} {m : Machine}
    {callers : List (Caller σ)} (hfabric : m.fabric = m₀.fabric)
    (hlevel : m.status.callLevel = before.callLevel + 1) (hrunning : m.status.running = true)
    (hstack : m.status.programStack = trap.frame - 4) (hawaited : Awaited m₀ callers before) :
    Kept m₀ ⟨.handling before trap script m, callers⟩
  | returning {m : Machine} {s : σ} {r : CallResult} {callers : List (Caller σ)}
    (hfabric : m.fabric = m₀.fabric) (hawaited : Awaited m₀ callers m.status) :
    Kept m₀ ⟨.returning m s r, callers⟩

variable {m₀ : Machine} {callers : List (Caller σ)}

/-- Awaited states differ in their call levels by the number of calls between them. -/
theorem Awaited.callLevel {status : Status} (h : Awaited m₀ callers status) :
    status.callLevel = m₀.status.callLevel + callers.length := by
  induction callers generalizing status with
  | nil => exact h.1
  | cons caller callers ih =>
    rw [h.1.1, ih h.2, List.length_cons, Nat.add_assoc]

/-- What is awaited depends on the call state only. -/
theorem Awaited.congr {status status' : Status} (h : Awaited m₀ callers status)
    (hlevel : status'.callLevel = status.callLevel) (hrunning : status'.running = status.running)
    (hstack : status'.programStack = status.programStack) : Awaited m₀ callers status' := by
  cases callers with
  | nil =>
    obtain ⟨h₁, h₂, h₃⟩ := h
    exact ⟨hlevel.trans h₁, hrunning.trans h₂, hstack.trans h₃⟩
  | cons caller callers =>
    obtain ⟨⟨h₁, h₂, h₃⟩, h⟩ := h
    exact ⟨⟨hlevel.trans h₁, hrunning.trans h₂, hstack.trans h₃⟩, h⟩

/-- **The call level is the number of calls in progress.** -/
theorem Kept.callLevel {γ : Point σ} (h : Kept m₀ γ) :
    γ.machine.status.callLevel = m₀.status.callLevel + γ.activations := by
  cases h with
  | executing _ hlevel _ hawaited =>
    rw [hawaited.callLevel] at hlevel
    exact hlevel
  | handling _ hlevel _ _ hawaited =>
    rw [hawaited.callLevel] at hlevel
    exact hlevel
  | returning _ hawaited => exact hawaited.callLevel

theorem Kept.fabric {γ : Point σ} (h : Kept m₀ γ) : γ.machine.fabric = m₀.fabric := by
  cases h <;> assumption

/-- A call that starts in an awaited state. -/
theorem kept_start {m : Machine} (hfabric : m.fabric = m₀.fabric)
    (hawaited : Awaited m₀ callers m.status) (s : σ) (c : Invocation) :
    Kept m₀ ⟨.start m s c, callers⟩ := by
  rw [Focus.start]
  obtain ⟨l, a, hl, ha, x, hx, hm⟩ | ⟨r, lastError, events, hrefused⟩ := m.accept_cases c
  · rw [hx]
    have hstatus : x.status = Machine.entered m.status := congrArg Machine.status hm
    refine .executing ?_ (by rw [hstatus]; rfl) (by rw [hstatus]; rfl) hawaited
    rw [hm, ← hfabric]
    obtain ⟨l', status⟩ := m
    obtain rfl : l' = some l := hl
    exact Machine.fabric_eq_of_mask ha rfl
  · rw [hrefused]
    exact .returning hfabric (hawaited.congr rfl rfl rfl)

/-- A call that ends one level above the state before it puts that state back. -/
theorem kept_ended {before : Status} {e : Ended σ} (hfabric : e.machine.fabric = m₀.fabric)
    (hlevel : e.machine.status.callLevel = before.callLevel + 1)
    (hawaited : Awaited m₀ callers before) : Kept m₀ ⟨.ended before e, callers⟩ := by
  have hback : e.machine.status.callLevel - 1 = before.callLevel := by omega
  obtain ⟨m, s, value, _ | f⟩ := e
  · exact .returning hfabric (hawaited.congr hback rfl rfl)
  · exact .returning hfabric (hawaited.congr hback rfl rfl)

/-- **Every step keeps the invariant.** -/
theorem kept_step (host : Host σ) {γ : Point σ} (h : Kept m₀ γ) : Kept m₀ (γ.step host) := by
  cases h with
  | @executing before i x s callers hfabric hlevel hrunning hawaited =>
    rw [step, Focus.advance]
    obtain ⟨a, status, hmask, ⟨breakCount, programStack, rfl⟩, hx⟩ := x.advance_cases i s
    have hfabric' : Machine.fabric ⟨some ⟨x.program, a⟩,
        { x.status with meter := x.charged, breakCount, programStack }⟩ = m₀.fabric :=
      (Machine.fabric_eq_of_mask hmask rfl).trans hfabric
    obtain ⟨y, hy, hm⟩ | ⟨value, fault, hx⟩ | ⟨trap, hx, hstack⟩ := hx
    · rw [hy]
      have hstatus : y.status = _ := congrArg Machine.status hm
      exact .executing (by rw [hm]; exact hfabric') (by rw [hstatus]; exact hlevel)
        (by rw [hstatus]; exact hrunning) hawaited
    · rw [hx]
      exact kept_ended hfabric' hlevel hawaited
    · rw [hx]
      exact .handling hfabric' hlevel hrunning hstack hawaited
  | @handling before trap script m callers hfabric hlevel hrunning hstack hawaited =>
    cases script with
    | done s reply =>
      rw [step, Focus.answer]
      obtain ⟨x, hx, hm⟩ | ⟨value, fault, hx⟩ := trap.resume_cases m s reply
      · rw [hx]
        have hstatus : x.status = m.status := congrArg Machine.status hm
        exact .executing (by rw [hm]; exact hfabric) (by rw [hstatus]; exact hlevel)
          (by rw [hstatus]; exact hrunning) hawaited
      · rw [hx]
        exact kept_ended hfabric hlevel hawaited
    | ask q k =>
      obtain ⟨hserved, heap, lastError, events, hstatus⟩ :=
        Request.served_perform (by omega) q (m := m)
      exact .handling (hserved.trans hfabric) (by rw [hstatus]; exact hlevel)
        (by rw [hstatus]; exact hrunning) (by rw [hstatus]; exact hstack) hawaited
    | call s c k =>
      have hcaller : Awaited m₀ (⟨before, trap, k⟩ :: callers) m.status :=
        ⟨⟨hlevel, hrunning, hstack⟩, hawaited⟩
      exact kept_start hfabric hcaller s c
  | @returning m s r callers hfabric hawaited =>
    cases callers with
    | nil => exact .returning hfabric hawaited
    | cons caller callers =>
      obtain ⟨⟨hlevel, hrunning, hstack⟩, hawaited⟩ := hawaited
      exact .handling hfabric hlevel hrunning hstack hawaited

/-- **The invariant holds in the whole course of a call.** -/
theorem kept_steps (host : Host σ) (n : Nat) (m : Machine) (s : σ) (c : Invocation) :
    Kept m (steps host n (start m s c)) := by
  induction n with
  | zero =>
    have hself : Awaited m ([] : List (Caller σ)) m.status := ⟨rfl, rfl, rfl⟩
    exact kept_start rfl hself s c
  | succ n ih =>
    rw [steps_succ']
    exact kept_step host ih

end Point

/-! ## Calls -/

namespace Machine

/-- What a machine has back after a call. -/
structure Restored (before after : Machine) : Prop where
  /-- The call level. -/
  callLevel : after.status.callLevel = before.status.callLevel
  /-- The running flag. -/
  running : after.status.running = before.status.running
  /-- The program stack. -/
  programStack : after.status.programStack = before.status.programStack
  /-- The bottom of the program stack. -/
  stackBottom : after.status.stackBottom = before.status.stackBottom
  /-- The instruction stream. -/
  code : after.loaded.map (·.program.code) = before.loaded.map (·.program.code)
  /-- The table of places. -/
  offsets : after.loaded.map (·.program.offsets) = before.loaded.map (·.program.offsets)
  /-- The mask of the arena. -/
  mask : after.loaded.map (·.arena.mask) = before.loaded.map (·.arena.mask)
  /-- The size of the arena, guard bytes included. -/
  size : after.loaded.map (·.arena.bytes.size) = before.loaded.map (·.arena.bytes.size)

theorem restored_of_fabric {m m' : Machine} (hfabric : m'.fabric = m.fabric)
    (hlevel : m'.status.callLevel = m.status.callLevel)
    (hrunning : m'.status.running = m.status.running)
    (hstack : m'.status.programStack = m.status.programStack) : m.Restored m' := by
  have hprogram : m'.loaded.map (·.program) = m.loaded.map (·.program) :=
    congrArg Fabric.program hfabric
  have hmask : m'.loaded.map (·.arena.mask) = m.loaded.map (·.arena.mask) :=
    congrArg Fabric.mask hfabric
  have size : ∀ l : Option Loaded, l.map (·.arena.bytes.size)
      = (l.map (·.arena.mask)).map fun mask => mask.toNat + 5 := by
    intro l
    cases l with
    | none => rfl
    | some l => exact congrArg some l.arena.size_bytes
  refine ⟨hlevel, hrunning, hstack, congrArg Fabric.stackBottom hfabric, ?_, ?_, hmask, ?_⟩
  · simpa only [Option.map_map, Function.comp_def] using congrArg (Option.map Program.code) hprogram
  · simpa only [Option.map_map, Function.comp_def]
      using congrArg (Option.map Program.offsets) hprogram
  · rw [size, size, hmask]

/-- A call that returns has put its call state back and has left the fabric alone. -/
theorem kept_call {host : Host σ} {fuel : Nat} {m m' : Machine} {s s' : σ} {c : Invocation}
    {r : CallResult} (h : call host fuel m s c = some (m', s', r)) :
    m'.fabric = m.fabric ∧ m'.status.callLevel = m.status.callLevel ∧
      m'.status.running = m.status.running ∧ m'.status.programStack = m.status.programStack := by
  obtain ⟨n, hn⟩ := (Point.call_iff_steps host m s c (m', s', r)).mp ⟨fuel, h⟩
  have hkept := Point.kept_steps host n m s c
  rw [hn] at hkept
  cases hkept with
  | returning hfabric hawaited => exact ⟨hfabric, hawaited⟩

/-- **Calls restore the machine, whatever happens.** The call is any call on any machine with any
host; it may be the host's own call back. If it returns, the machine has back what it had. At every
point of its course, whether it returns or not, the call level has grown by the number of calls in
progress, and the machine is running while a host handles a trap; and when a call back of the host
returns to it, the machine has back what it had when that call was made. -/
theorem call_restores (host : Host σ) (m : Machine) (s : σ) (c : Invocation) :
    (∀ fuel m' s' r, call host fuel m s c = some (m', s', r) → m.Restored m') ∧
    (∀ n, (Point.steps host n (.start m s c)).machine.status.callLevel
      = m.status.callLevel + (Point.steps host n (.start m s c)).activations) ∧
    (∀ n before trap script m₁ callers,
      Point.steps host n (.start m s c) = ⟨.handling before trap script m₁, callers⟩ →
        m₁.status.running = true) ∧
    ∀ n n' before trap s₁ c₁ k m₁ s₂ r m₂ callers callers',
      Point.steps host n (.start m s c) = ⟨.handling before trap (.call s₁ c₁ k) m₁, callers⟩ →
      Point.steps host n' (.start m s c) = ⟨.returning m₂ s₂ r, ⟨before, trap, k⟩ :: callers'⟩ →
        m₁.Restored m₂ := by
  refine ⟨fun fuel m' s' r h => ?_, fun n => (Point.kept_steps host n m s c).callLevel, ?_, ?_⟩
  · obtain ⟨hfabric, hlevel, hrunning, hstack⟩ := kept_call h
    exact restored_of_fabric hfabric hlevel hrunning hstack
  · intro n before trap script m₁ callers hn
    have hkept := Point.kept_steps host n m s c
    rw [hn] at hkept
    cases hkept with
    | handling _ _ hrunning _ _ => exact hrunning
  · intro n n' before trap s₁ c₁ k m₁ s₂ r m₂ callers callers' hn hn'
    have hkept := Point.kept_steps host n m s c
    have hkept' := Point.kept_steps host n' m s c
    rw [hn] at hkept
    rw [hn'] at hkept'
    cases hkept with
    | handling hfabric hlevel hrunning hstack _ =>
      cases hkept' with
      | returning hfabric' hawaited' =>
        obtain ⟨⟨hlevel', hrunning', hstack'⟩, -⟩ := hawaited'
        exact restored_of_fabric (hfabric'.trans hfabric.symm) (hlevel'.trans hlevel.symm)
          (hrunning'.trans hrunning.symm) (hstack'.trans hstack.symm)

/-- A host that answers every trap with a call back and hides how that ended. -/
def insistent : Host Unit :=
  fun _ => do
    let _ ← HostM.call ⟨0, [], none⟩
    return .value 0

/-- Two calls deep the instructions are used up; both calls fail, and the machine is as before. -/
theorem call_restores_sample :
    ∃ mod m' r, Module.load "sample" Module.sampleImage = .ok mod ∧
      call insistent 8 (create mod 4) () ⟨0, [], none⟩ = some (m', (), r) ∧
      r.failure.isSome = true ∧ (create mod 4).Restored m' := by
  have hfails : (Module.load "sample" Module.sampleImage).toOption.map (fun mod =>
      (call insistent 8 (create mod 4) () ⟨0, [], none⟩).map fun y => y.2.2.failure.isSome)
      = some (some true) := by
    decide +kernel
  obtain ⟨mod, hmod⟩ := Module.exists_load_sample
  rw [hmod] at hfails
  obtain ⟨⟨m', s, r⟩, hcall, hr⟩ := Option.map_eq_some_iff.mp (Option.some.inj hfails)
  exact ⟨mod, m', r, hmod, hcall, hr, (call_restores insistent _ () _).1 8 m' s r hcall⟩

end Machine

end BytecodeHost
