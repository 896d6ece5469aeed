import BytecodeHost.Proofs.Machine.Restoration

/-!
# Releasing a machine

A machine is released or overwritten between calls only. The guard is the call level, which calls
maintain however they end (`Point.Kept`): inside a handler, at any depth, it is not zero, so the
host is refused and the calls in progress keep their program and their arena. After the outermost
call it is zero again, and the machine can be released. That is final: a machine without a module
refuses everything that needs one, and no operation loads one.

## Main definitions

* `Machine.Refused` — an operation that failed and changed nothing but the record of failures
* `Point.inHand` — the machine that a host may work on while it handles a trap
* `Machine.Released`, `Machine.Inert` — a machine without a module, and what it refuses
* `Operation` — what can be done with a machine

## Main results

* `Point.loaded_of_inHand` — a machine whose trap is handled is loaded, and at a level above zero
* `Operation.released_perform`, `Operation.released_performAll` — a released machine stays released
* `Machine.release_after_call` — no release in a call, and none is undone
-/

namespace BytecodeHost

variable {σ : Type}

/-! ## Refusals -/

namespace Machine

variable {α : Type} {m : Machine}

/-- An operation on `m` was refused with a kind. Of the machine only the last error and the reports
are different. -/
structure Refused (kind : Kind) (m : Machine) (r : Machine × Except Failure α) : Prop where
  /-- The refusal is recorded, and nothing else. -/
  machine : ∃ detail, r.1 = { m with
    status := { m.status with
      lastError := kind
      events := m.status.events.push ⟨kind, detail, true⟩ } }
  /-- The operation fails. -/
  outcome : ∃ f, r.2 = .error f ∧ Failure.kindOf (some f) = kind

theorem refused_refuse (m : Machine) (f : Fault) :
    Refused f.kind m (m.refuse f : Machine × Except Failure α) :=
  ⟨⟨f.detail, rfl⟩, f.toFailure, rfl, rfl⟩

theorem refused_free (h : m.status.callLevel ≠ 0) : Refused .freeWhileRunning m m.free := by
  rw [free, if_pos h]
  exact refused_refuse m (.busy "free" _)

theorem refused_restore (hloaded : m.loaded.isSome) (h : m.status.callLevel ≠ 0)
    (saved : ByteArray) : Refused .freeWhileRunning m (m.restore saved) := by
  obtain ⟨l, hl⟩ := Option.isSome_iff_exists.mp hloaded
  simp only [restore, hl]
  rw [if_pos h]
  exact refused_refuse m (.busy "restore" _)

end Machine

/-! ## Machines in the hands of a host -/

namespace Point

/-- The machine that a host may work on, if it handles a trap. -/
def inHand : Point σ → Option Machine
  | ⟨.handling _ _ _ m, _⟩ => some m
  | ⟨.executing .., _⟩ | ⟨.returning .., _⟩ => none

/-- **A machine whose trap is handled is loaded, and a call is in progress on it.** -/
theorem loaded_of_inHand {host : Host σ} {n : Nat} {m m₁ : Machine} {s : σ} {c : Invocation}
    (h : (steps host n (start m s c)).inHand = some m₁) :
    m₁.loaded.isSome ∧ m₁.status.callLevel ≠ 0 := by
  have hkept := kept_steps host n m s c
  cases hl : m.loaded with
  | none =>
    -- the call was refused, so no trap was ever raised
    obtain ⟨m', r, hrefused⟩ : ∃ m' r, m.accept c = .error (m', r) := by
      rw [Machine.accept, hl]
      exact ⟨_, _, rfl⟩
    rw [start, Focus.start, hrefused, steps_returning] at h
    contradiction
  | some l =>
    revert h
    generalize steps host n (start m s c) = γ at hkept
    intro h
    cases hkept with
    | executing | returning => contradiction
    | handling hfabric hlevel =>
      obtain rfl := Option.some.inj h
      obtain ⟨a, hloaded, -⟩ := Machine.exists_loaded_of_fabric hfabric hl
      rw [hloaded, hlevel]
      exact ⟨rfl, Nat.succ_ne_zero _⟩

end Point

/-! ## Released machines -/

namespace Machine

/-- A machine that has no module and no heap. -/
structure Released (m : Machine) : Prop where
  /-- Nothing is loaded. -/
  loaded : m.loaded = none
  /-- No heap is set. -/
  heap : m.status.heap = {}

/-- A machine on which all that needs a module or a heap is refused. -/
structure Inert (m : Machine) : Prop where
  call : ∀ {σ : Type} (host : Host σ) (fuel : Nat) (s : σ) (c : Invocation), ∃ m' f,
    call host fuel m s c = some (m', s, ⟨returnMarker, some f⟩) ∧
      Refused .notLoaded m ((m', .error f) : Machine × Except Failure UInt32)
  snapshot : Refused .notLoaded m m.snapshot
  restore : ∀ saved, Refused .notLoaded m (m.restore saved)
  setHeap : ∀ start length, Refused .notLoaded m (m.setHeap start length)
  translate : ∀ address, Refused .notLoaded m (m.translate address)
  validateRange : ∀ address length, Refused .notLoaded m (m.validateRange address length)
  cString : ∀ address, Refused .notLoaded m (m.cString address)
  malloc : ∀ size, Refused .allocationFailed m (m.malloc size)

variable {m : Machine}

/-- Between calls a machine can be released. -/
theorem exists_free (h : m.status.callLevel = 0) : ∃ m', m.free = (m', .ok ()) ∧ m'.Released := by
  rw [free, if_neg (by simp [h])]
  exact ⟨_, rfl, rfl, rfl⟩

/-- **A released machine refuses** all that needs a module or a heap. -/
theorem Released.inert (h : m.Released) : m.Inert := by
  obtain ⟨l, status⟩ := m
  obtain ⟨rfl, hheap⟩ : l = none ∧ status.heap = {} := ⟨h.loaded, h.heap⟩
  have refused : ∀ {α : Type} (activity : String),
      Refused .notLoaded ⟨none, status⟩
        (refuse ⟨none, status⟩ (.unloaded activity) : Machine × Except Failure α) :=
    fun activity => refused_refuse _ (.unloaded activity)
  refine ⟨fun host fuel s c => ?_, refused _, fun _ => refused _, fun _ _ => refused _,
    fun _ => refused _, fun _ _ => refused _, fun _ => refused _, fun size => ?_⟩
  · exact ⟨_, _, rfl, ⟨_, rfl⟩, _, rfl, rfl⟩
  · rw [malloc, hheap]
    exact refused_refuse _ .noHeap

end Machine

/-- What can be done with a machine: a request, or a call with any host. -/
inductive Operation : Type 1 where
  /-- A request. -/
  | request (q : Request)
  /-- A call. -/
  | call {σ : Type} (host : Host σ) (fuel : Nat) (s : σ) (c : Invocation)

namespace Operation

/-- The machine after an operation, unless it is a call without fuel enough. -/
def perform (m : Machine) : Operation → Option Machine
  | request q => some (q.perform m).1
  | call host fuel s c => (m.call host fuel s c).map (·.1)

/-- The machine after operations one after another. -/
def performAll : Machine → List Operation → Option Machine
  | m, [] => some m
  | m, o :: os => (o.perform m).bind fun m => performAll m os

/-- What is refused leaves a released machine released. -/
theorem released_of_refused {α : Type} {kind : Kind} {m : Machine} {r : Machine × Except Failure α}
    (h : m.Released) (hrefused : m.Refused kind r) : r.1.Released := by
  obtain ⟨detail, hm⟩ := hrefused.machine
  rw [hm]
  exact ⟨h.loaded, h.heap⟩

/-- **No operation loads a released machine.** -/
theorem released_perform {m : Machine} (h : m.Released) (o : Operation) :
    ∃ m', o.perform m = some m' ∧ m'.Released := by
  have hinert := h.inert
  cases o with
  | call host fuel s c =>
    obtain ⟨m', f, hcall, hrefused⟩ := hinert.call host fuel s c
    refine ⟨m', ?_, released_of_refused h hrefused⟩
    rw [perform, hcall]
    rfl
  | request q =>
    refine ⟨_, rfl, ?_⟩
    cases q with
    | inspect => exact h
    | resetMeter => exact ⟨h.loaded, h.heap⟩
    | chargeMeter n => exact ⟨h.loaded, h.heap⟩
    | poke offset bytes =>
      obtain ⟨l, status⟩ := m
      obtain rfl : l = none := h.loaded
      exact h
    | free =>
      show m.free.1.Released
      rw [Machine.free]
      split
      · exact ⟨h.loaded, h.heap⟩
      · exact ⟨rfl, rfl⟩
    | snapshot => exact released_of_refused h hinert.snapshot
    | restore saved => exact released_of_refused h (hinert.restore saved)
    | validateRange address length =>
      exact released_of_refused h (hinert.validateRange address length)
    | cString address => exact released_of_refused h (hinert.cString address)
    | translate address => exact released_of_refused h (hinert.translate address)
    | setHeap start length => exact released_of_refused h (hinert.setHeap start length)
    | malloc size => exact released_of_refused h (hinert.malloc size)

/-- **No sequence of operations does.** -/
theorem released_performAll {m : Machine} (h : m.Released) (os : List Operation) :
    ∃ m', performAll m os = some m' ∧ m'.Released := by
  induction os generalizing m with
  | nil => exact ⟨m, rfl, h⟩
  | cons o os ih =>
    obtain ⟨m₁, hm₁, h₁⟩ := released_perform h o
    obtain ⟨m', hm', h'⟩ := ih h₁
    exact ⟨m', by rw [performAll, hm₁, Option.bind_some, hm'], h'⟩

end Operation

/-! ## Calls -/

namespace Machine

/-- **Nothing is released or replaced under a call, and no release is undone.** Whenever a host
handles a trap in the course of a call, at any depth, the machine that it has in hand refuses to be
released or overwritten, and nothing but the record of failures is different afterwards. So at every
point of the course the machine has its own program and an arena of the same size. When an outermost
call has returned, the machine can be released; and then, whatever is done with it, nothing is
loaded and all that needs a module or a heap is refused. -/
theorem release_after_call (host : Host σ) (m : Machine) (s : σ) (c : Invocation) :
    (∀ n m₁, (Point.steps host n (.start m s c)).inHand = some m₁ →
      Refused .freeWhileRunning m₁ m₁.free ∧
        ∀ saved, Refused .freeWhileRunning m₁ (m₁.restore saved)) ∧
    (∀ l, m.loaded = some l → ∀ n, ∃ a,
      (Point.steps host n (.start m s c)).machine.loaded = some ⟨l.program, a⟩ ∧
        a.mask = l.arena.mask) ∧
    (m.status.callLevel = 0 → ∀ fuel m' s' r, call host fuel m s c = some (m', s', r) →
      ∃ m₀, m'.free = (m₀, .ok ()) ∧ ∀ os, ∃ m₁, Operation.performAll m₀ os = some m₁ ∧
        m₁.loaded = none ∧ m₁.Inert) := by
  refine ⟨fun n m₁ hm₁ => ?_, fun l hl n => ?_, fun hlevel fuel m' s' r hcall => ?_⟩
  · obtain ⟨hloaded, hlevel⟩ := Point.loaded_of_inHand hm₁
    exact ⟨refused_free hlevel, refused_restore hloaded hlevel⟩
  · exact exists_loaded_of_fabric (Point.kept_steps host n m s c).fabric hl
  · obtain ⟨-, hlevel', -, -⟩ := kept_call hcall
    obtain ⟨m₀, hfree, hreleased⟩ := exists_free (hlevel'.trans hlevel)
    refine ⟨m₀, hfree, fun os => ?_⟩
    obtain ⟨m₁, hm₁, h₁⟩ := Operation.released_performAll hreleased os
    exact ⟨m₁, hm₁, h₁.loaded, h₁.inert⟩

/-- A host that calls back cannot release the machine before that; after the call it is released for
good. -/
theorem release_after_call_sample :
    ∃ mod m₁ a m' r m₀ m₂, Module.load "sample" Module.sampleImage = .ok mod ∧
      (Point.steps insistent 3 (.start (create mod 4) () ⟨0, [], none⟩)).inHand = some m₁ ∧
      Refused .freeWhileRunning m₁ m₁.free ∧
      (Point.steps insistent 6 (.start (create mod 4) () ⟨0, [], none⟩)).machine.loaded
        = some ⟨mod.program, a⟩ ∧
      call insistent 8 (create mod 4) () ⟨0, [], none⟩ = some (m', (), r) ∧
      m'.free = (m₀, .ok ()) ∧
      Operation.performAll m₀ [.request (.restore .empty), .call insistent 8 () ⟨0, [], none⟩]
        = some m₂ ∧
      m₂.loaded = none ∧ m₂.Inert := by
  have htraps : (Module.load "sample" Module.sampleImage).toOption.map (fun mod =>
      ((Point.steps insistent 3 (.start (create mod 4) () ⟨0, [], none⟩)).inHand.isSome,
        (call insistent 8 (create mod 4) () ⟨0, [], none⟩).isSome)) = some (true, true) := by
    decide +kernel
  obtain ⟨mod, hmod⟩ := Module.exists_load_sample
  rw [hmod] at htraps
  obtain ⟨hinHand, hends⟩ := Prod.mk.inj (Option.some.inj htraps)
  obtain ⟨m₁, hm₁⟩ := Option.isSome_iff_exists.mp hinHand
  obtain ⟨⟨m', s, r⟩, hcall⟩ := Option.isSome_iff_exists.mp hends
  obtain ⟨hrefused, hkeeps, hreleased⟩ :=
    release_after_call insistent (create mod 4) () ⟨0, [], none⟩
  obtain ⟨a, ha, -⟩ := hkeeps _ rfl 6
  obtain ⟨m₀, hfree, hfinal⟩ := hreleased rfl 8 m' s r hcall
  obtain ⟨m₂, hm₂, hloaded, hinert⟩ :=
    hfinal [.request (.restore .empty), .call insistent 8 () ⟨0, [], none⟩]
  exact ⟨mod, m₁, a, m', r, m₀, m₂, hmod, hm₁, (hrefused 3 m₁ hm₁).1, ha, hcall, hfree, hm₂,
    hloaded, hinert⟩

end Machine

end BytecodeHost
